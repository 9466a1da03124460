import Tablewright.Proofs.Schema.Reading

/-! The problems of a payload of texts. What becomes of each place in the row, and what is
reported about it, is said here field by field. Reading a row, or the keys of one, comes to just
this from every journal, unless a text overflows. -/

namespace Tablewright

/-- The value that raw input is taken as, if it is taken. -/
def Field.taken? (f : Field) (raw : Value) : Option Value := (f.parse raw).toOption.getD none

namespace RecordSchema

open Check

variable {s : RecordSchema} {ctx : RequestContext} {mode : InputMode} {es : List (String × String)}
  {f : Field} {fs : List Field} {r : Reading} {row : Row}

/-- A payload of texts under names. -/
def textPayload (es : List (String × String)) : Value := .map (es.map fun e => (e.1, .text e.2))

/-- The text under a field's name, or null. -/
def given (es : List (String × String)) (f : Field) : Value :=
  Value.ofOption ((Entries.get? f.name es).map .text)

theorem payloadValue_textPayload : payloadValue (textPayload es) f.name = .ok (given es f) := by
  rw [given, ← Entries.get?_map]
  rfl

/-- The text under a field's name overflows, or an entry of the field's list does. -/
def InputOverflows (es : List (String × String)) (f : Field) : Prop :=
  (∃ text, Entries.get? f.name es = some text ∧ f.valueType.Overflows text) ∨ f.ListOverflows

/-- A text that was given is taken or not, unless it overflows. -/
theorem endsUnless_given (hp : f.schema.pattern = none) (h : ¬ isMissing (given es f) = true) :
    EndsUnless (InputOverflows es f) (.mk (pure (f.parse (given es f)))) (f.taken? (given es f)) [] := by
  cases hg : Entries.get? f.name es with
  | none => exact absurd (by rw [given, hg]; rfl) h
  | some text =>
    rw [given, hg]
    refine ((f.yields_parse hp text).mono ?_).endsUnless
    exact fun hover => hover.imp_left fun hover => ⟨text, hg, hover⟩

/-! ## Places -/

/-- What raw input puts in a field's place. -/
def placed (needed : Bool) (f : Field) (raw : Value) : Entry :=
  if isMissing raw then if needed then .rejected else .keep
  else match f.taken? raw with
    | some v => .put v
    | none => .rejected

/-- The message about raw input that is rejected. -/
def refusal (mode : InputMode) (f : Field) (raw : Value) : Message :=
  if isMissing raw then requiredMessage mode f else invalidMessage mode f raw

/-- The messages about a place: the one given if it was rejected, and none otherwise. -/
def Entry.problems (m : Message) : Entry → List Message
  | .rejected => [m]
  | _ => []

/-- A value that stands under a field's name is put in its place or reported, as long as it is known
what it is taken as. -/
theorem endsUnless_readPayload {reason : Prop} {payload raw : Value}
    (hraw : payloadValue payload f.name = .ok raw)
    (htaken : ¬ isMissing raw = true →
      EndsUnless reason (.mk (pure (f.parse raw))) (f.taken? raw) []) :
    EndsUnless reason (readPayload mode payload f) (placed (needsInput mode f) f raw)
      ((placed (needsInput mode f) f raw).problems (refusal mode f raw)) := by
  unfold readPayload
  rw [hraw]
  refine ends_known.unless.then ?_
  unfold placed refusal
  by_cases hmissing : isMissing raw = true
  · simp only [if_pos hmissing]
    by_cases hneeded : needsInput mode f = true
    · simp only [if_pos hneeded]
      exact ends_note.unless.then (ends_report.unless.bind ends_pure.unless)
    · simp only [if_neg hneeded]
      exact ends_pure.unless
  · simp only [if_neg hmissing]
    refine (htaken hmissing).then ?_
    cases f.taken? raw with
    | some v => exact ends_pure.unless
    | none => exact ends_note.unless.then (ends_report.unless.bind ends_pure.unless)

/-- A key is never left out: it is put in its place or reported. -/
theorem endsUnless_readKey {reason : Prop} {payload raw : Value}
    (hraw : payloadValue payload f.name = .ok raw)
    (htaken : ¬ isMissing raw = true →
      EndsUnless reason (.mk (pure (f.parse raw))) (f.taken? raw) []) :
    EndsUnless reason (readKey payload f) (placed true f raw)
      ((placed true f raw).problems (refusal {} f raw)) := by
  unfold readKey
  rw [hraw]
  refine ends_known.unless.then ?_
  unfold placed refusal
  by_cases hmissing : isMissing raw = true
  · simp only [if_pos hmissing]
    exact ends_report.unless.bind ends_pure.unless
  · simp only [if_neg hmissing]
    refine (htaken hmissing).then ?_
    cases f.taken? raw with
    | some v => exact ends_pure.unless
    | none => exact ends_report.unless.bind ends_pure.unless

/-- What is reported about a key. -/
def keyProblem (es : List (String × String)) (f : Field) : List Message :=
  (placed true f (given es f)).problems (refusal {} f (given es f))

/-- Whether a field's place is filled from the payload. -/
def readsPayload (mode : InputMode) (f : Field) : Bool :=
  !mode.skip.contains f.index && match f.role with
    | some .tenantKey | some .createdBy | some .modifiedBy => false
    | some .generatedPrimaryKey => !mode.forInsert
    | _ => true

/-- What the request's context puts in a field's place. -/
def contextEntry (ctx : RequestContext) (mode : InputMode) (f : Field) : Entry :=
  if mode.skip.contains f.index then .keep
  else match f.role with
    | some .tenantKey => .put ctx.tenant
    | some .createdBy | some .modifiedBy => .put ctx.user
    | _ => .keep

theorem readField_eq {payload : Value} : readField ctx mode payload f =
    if readsPayload mode f then readPayload mode payload f else pure (contextEntry ctx mode f) := by
  unfold readField readsPayload contextEntry
  by_cases hskip : mode.skip.contains f.index = true
  · simp only [hskip, if_true, Bool.not_true, Bool.false_and, Bool.false_eq_true, if_false]
  · simp only [hskip, Bool.false_eq_true, if_false, Bool.not_false, Bool.true_and]
    cases f.role with
    | none => rfl
    | some role =>
      cases role with
      | generatedPrimaryKey => cases mode.forInsert <;> rfl
      | _ => rfl

/-- What becomes of a field's place in the row. -/
def entryFor (ctx : RequestContext) (mode : InputMode) (es : List (String × String)) (f : Field) :
    Entry :=
  if readsPayload mode f then placed (needsInput mode f) f (given es f) else contextEntry ctx mode f

/-- What is reported about a field's place. -/
def fieldProblems (ctx : RequestContext) (mode : InputMode) (es : List (String × String))
    (f : Field) : List Message := (entryFor ctx mode es f).problems (refusal mode f (given es f))

theorem problems_contextEntry {m : Message} : (contextEntry ctx mode f).problems m = [] := by
  unfold contextEntry
  split
  · rfl
  · split <;> rfl

theorem endsUnless_readField (hp : f.schema.pattern = none) :
    EndsUnless (readsPayload mode f = true ∧ InputOverflows es f)
      (readField ctx mode (textPayload es) f) (entryFor ctx mode es f)
      (fieldProblems ctx mode es f) := by
  unfold fieldProblems entryFor
  rw [readField_eq]
  by_cases hread : readsPayload mode f = true
  · simp only [if_pos hread]
    exact (endsUnless_readPayload payloadValue_textPayload (endsUnless_given hp)).mono fun hover =>
      ⟨hread, hover⟩
  · simp only [if_neg hread, problems_contextEntry]
    exact ends_pure.unless

/-! ## Rows -/

theorem accepted_enter_iff {e : Entry} {m : Message} :
    (r.enter f e).accepted = true ↔ r.accepted = true ∧ e.problems m = [] := by
  cases e <;> simp [Reading.enter, Entry.problems]

/-- Everything that went into a row was accepted if nothing was reported about its places. -/
theorem accepted_foldl_iff {e : Field → Entry} {m : Field → Message} :
    (fs.foldl (fun r f => r.enter f (e f)) r).accepted = true ↔
      r.accepted = true ∧ fs.flatMap (fun f => (e f).problems (m f)) = [] := by
  induction fs generalizing r with
  | nil => simp
  | cons f fs ih =>
    rw [List.foldl_cons, ih, accepted_enter_iff, List.flatMap_cons, List.append_eq_nil_iff, and_assoc]

/-- The row that a payload describes, before its keyed value lists are looked at. -/
def readingOf (s : RecordSchema) (ctx : RequestContext) (mode : InputMode)
    (es : List (String × String)) : Reading :=
  s.fields.foldl (fun r f => r.enter f (entryFor ctx mode es f)) { row := s.newRow }

/-- What is reported about a value that has to be in the list which its row selects. -/
def dependentProblems (s : RecordSchema) (mode : InputMode) (row : Row) (f : Field) : List Message :=
  match f.list, f.listKey.bind (s.fields[·]?) with
  | some l, some keyField =>
    let v := row.getD f.index .null
    let key := row.getD keyField.index .null
    if mode.skip.contains f.index || v.isNull || l.has v f.valueType key then []
    else [dependentMessage mode f v keyField.name key]
  | _, _ => []

theorem endsUnless_checkDependent : EndsUnless f.ListOverflows (s.checkDependent mode row f)
    (s.dependentProblems mode row f).isEmpty (s.dependentProblems mode row f) := by
  unfold checkDependent dependentProblems
  cases hl : f.list with
  | none => exact ends_pure.unless
  | some l =>
    cases f.listKey.bind (s.fields[·]?) with
    | none => exact ends_pure.unless
    | some keyField =>
      dsimp only
      by_cases hleft : (mode.skip.contains f.index || (row.getD f.index .null).isNull) = true
      · simp only [hleft, if_true, Bool.true_or]
        exact ends_pure.unless
      simp only [hleft, Bool.false_eq_true, if_false, Bool.false_or]
      refine (EndsUnless.mono (l.endsUnless_admits _ _ _) fun hover => ⟨l, hl, hover⟩).then ?_
      cases l.has (row.getD f.index .null) f.valueType (row.getD keyField.index .null) with
      | true => exact ends_pure.unless
      | false => exact ends_note.unless.then (ends_report.unless.bind ends_pure.unless)

theorem isEmpty_foldl {p : Field → List Message} {ok : Bool} :
    fs.foldl (fun ok f => (p f).isEmpty && ok) ok = (ok && (fs.flatMap p).isEmpty) := by
  induction fs generalizing ok with
  | nil => simp
  | cons f fs ih =>
    rw [List.foldl_cons, ih, List.flatMap_cons]
    cases p f <;> simp

/-- Values in keyed lists are looked at one by one, whether or not the row was accepted so far. -/
theorem endsUnless_checkAll {ok : Bool} : EndsUnless (∃ f ∈ fs, f.ListOverflows)
    (fs.foldlM (s.checkNext mode row) ok)
    (ok && (fs.flatMap (s.dependentProblems mode row)).isEmpty)
    (fs.flatMap (s.dependentProblems mode row)) := by
  rw [← isEmpty_foldl]
  refine endsUnless_foldlM fun y f hf => EndsUnless.map ?_
  exact endsUnless_checkDependent.mono fun hover => ⟨f, hf, hover⟩

/-- What is reported about a payload: first the fields' places, then the values in keyed lists. -/
def rowProblems (s : RecordSchema) (ctx : RequestContext) (mode : InputMode)
    (es : List (String × String)) : List Message :=
  s.fields.flatMap (fieldProblems ctx mode es) ++
    s.dependentFields.flatMap (s.dependentProblems mode (s.readingOf ctx mode es).row)

/-- Something that a payload has for a field overflows. -/
def RowOverflows (s : RecordSchema) (mode : InputMode) (es : List (String × String)) : Prop :=
  ∃ f ∈ s.fields, readsPayload mode f = true ∧ InputOverflows es f ∨ f.ListOverflows

/-- Reading a row ends with the row that the payload describes if there is nothing to report, and
else with none. -/
theorem endsUnless_parseRow (hp : ∀ f ∈ s.fields, f.schema.pattern = none) :
    EndsUnless (s.RowOverflows mode es) (s.parseRow ctx mode (textPayload es))
      (if (s.rowProblems ctx mode es).isEmpty then some (s.readingOf ctx mode es).row else none)
      (s.rowProblems ctx mode es) := by
  have hfields : EndsUnless (s.RowOverflows mode es)
      (s.fields.foldlM (readInto ctx mode (textPayload es)) { row := s.newRow })
      (s.readingOf ctx mode es) (s.fields.flatMap (fieldProblems ctx mode es)) := by
    refine endsUnless_foldlM fun y f hf => EndsUnless.map ?_
    exact (endsUnless_readField (hp f hf)).mono fun hover => ⟨f, hf, .inl hover⟩
  have hlists : EndsUnless (s.RowOverflows mode es)
      (s.dependentFields.foldlM (s.checkNext mode (s.readingOf ctx mode es).row)
        (s.readingOf ctx mode es).accepted)
      ((s.readingOf ctx mode es).accepted && (s.dependentFields.flatMap
        (s.dependentProblems mode (s.readingOf ctx mode es).row)).isEmpty)
      (s.dependentFields.flatMap (s.dependentProblems mode (s.readingOf ctx mode es).row)) := by
    refine endsUnless_checkAll.mono fun hover => ?_
    obtain ⟨f, hf, hover⟩ := hover
    exact ⟨f, (List.mem_filter.mp hf).1, .inr hover⟩
  have haccepted : (s.readingOf ctx mode es).accepted = true ↔
      true = true ∧ s.fields.flatMap (fieldProblems ctx mode es) = [] := accepted_foldl_iff
  have hok : (s.rowProblems ctx mode es).isEmpty = ((s.readingOf ctx mode es).accepted &&
      (s.dependentFields.flatMap
        (s.dependentProblems mode (s.readingOf ctx mode es).row)).isEmpty) := by
    rw [Bool.eq_iff_iff, Bool.and_eq_true, haccepted, List.isEmpty_iff, List.isEmpty_iff, rowProblems,
      List.append_eq_nil_iff]
    simp
  rw [hok]
  exact hfields.bind hlists.map

/-! ## Keys -/

/-- The row of defaults with the context's tenant, in which keys are read. -/
def keyStart (s : RecordSchema) (ctx : RequestContext) : Row :=
  match s.tenantField with
  | some t => s.newRow.set t.index ctx.tenant
  | none => s.newRow

/-- The row with the keys of a payload. -/
def keysOf (s : RecordSchema) (ctx : RequestContext) (es : List (String × String)) : Reading :=
  s.keyFields.foldl (fun r f => r.enter f (placed true f (given es f))) { row := s.keyStart ctx }

/-- What is reported about the keys of a payload. -/
def keyProblems (s : RecordSchema) (es : List (String × String)) : List Message :=
  if s.keyFields.isEmpty then [.error (s.name ++ " has no key fields") Message.internalError]
  else s.keyFields.flatMap (keyProblem es)

/-- Reading keys comes to what becomes of each of them: a row with what was put in their places, if
there is nothing to report, and else none. -/
theorem endsUnless_keyFields {reason : Prop} {payload : Value} {e : Field → Entry}
    {m : Field → Message} (hkeys : s.keyFields.isEmpty = false)
    (h : ∀ f ∈ s.keyFields, EndsUnless reason (readKey payload f) (e f) ((e f).problems (m f))) :
    EndsUnless reason (s.parseKeys ctx payload)
      (if (s.keyFields.flatMap fun f => (e f).problems (m f)).isEmpty then
        some (s.keyFields.foldl (fun (r : Reading) f => r.enter f (e f))
          { row := s.keyStart ctx }).row else none)
      (s.keyFields.flatMap fun f => (e f).problems (m f)) := by
  unfold parseKeys
  simp only [hkeys, Bool.false_eq_true, if_false]
  have hread : EndsUnless reason
      (s.keyFields.foldlM (readKeyInto payload) { row := s.keyStart ctx })
      (s.keyFields.foldl (fun (r : Reading) f => r.enter f (e f)) { row := s.keyStart ctx })
      (s.keyFields.flatMap fun f => (e f).problems (m f)) :=
    endsUnless_foldlM fun y f hf => (h f hf).map
  have hok : (s.keyFields.foldl (fun (r : Reading) f => r.enter f (e f))
      { row := s.keyStart ctx }).accepted = true ↔
      true = true ∧ (s.keyFields.flatMap fun f => (e f).problems (m f)) = [] := accepted_foldl_iff
  simp only [true_and, ← List.isEmpty_iff] at hok
  rw [← Bool.eq_iff_iff.mpr hok]
  exact hread.map

/-- Reading keys ends with the row that the payload describes if there is nothing to report, and
else with none. -/
theorem endsUnless_parseKeys (hp : ∀ f ∈ s.keyFields, f.schema.pattern = none) :
    EndsUnless (∃ f ∈ s.keyFields, InputOverflows es f) (s.parseKeys ctx (textPayload es))
      (if (s.keyProblems es).isEmpty then some (s.keysOf ctx es).row else none)
      (s.keyProblems es) := by
  unfold keyProblems
  by_cases hkeys : s.keyFields.isEmpty = true
  · unfold parseKeys
    simp only [if_pos hkeys]
    exact ends_note.unless.then (ends_report.unless.bind ends_pure.unless)
  · simp only [if_neg hkeys]
    refine endsUnless_keyFields (Bool.eq_false_of_not_eq_true hkeys) fun f hf => ?_
    refine (endsUnless_readKey payloadValue_textPayload (endsUnless_given (hp f hf))).mono ?_
    exact fun hover => ⟨f, hf, hover⟩

end RecordSchema

end Tablewright
