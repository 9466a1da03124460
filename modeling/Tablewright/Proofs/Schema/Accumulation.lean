import Tablewright.Proofs.Judging
import Tablewright.Proofs.Schema.Entry

/-! Rows of any payload. An object is read field by field to its end: a row comes out exactly if no
problem was reported, and every message names the object and the row that the reader was told. What
is no object has nothing under any name, so reading it is a failure as soon as a field is looked for
in it. -/

namespace Tablewright

open Check

/-- A message about the object and the row that a reader was told. -/
def InputMode.Names (mode : InputMode) (m : Message) : Prop :=
  m.object = mode.object ∧ m.row = mode.rowNumber

namespace Field

variable {f : Field}

/-- Whatever is given for the field is taken or refused, and its list of values can be read. -/
def Total (f : Field) : Prop := (∀ raw, ∃ v, f.parse raw = .ok v) ∧ ¬ f.ListOverflows

/-- A text field reads anything as the text that shows it. -/
theorem readRaw_of_text (ht : f.valueType = .text) {raw : Value} (hraw : raw.isNull = false) :
    f.readRaw raw = f.readRaw (.text raw.display) := by
  have hnative (v : Value) : (!v.isNull && !isText v && f.valueType.admits v) = false := by
    rw [ht]
    cases v <;> rfl
  rw [readRaw, readRaw, hnative, hnative]
  cases raw with
  | null => cases hraw
  | _ => rfl

theorem total_of_text (ht : f.valueType = .text) (hp : f.schema.pattern = none) : f.Total := by
  have hover (text : String) : ¬ f.valueType.Overflows text := fun h => by
    have hinteger := h.integer
    rw [ht] at hinteger
    cases hinteger
  have hlist : ¬ f.ListOverflows := fun ⟨_, _, entry, _, h⟩ => hover entry h
  refine ⟨fun raw => ?_, hlist⟩
  by_cases hnull : raw.isNull = true
  · cases raw with
    | null => exact ⟨none, by rw [parse, readRaw]; rfl⟩
    | _ => cases hnull
  · rw [parse, readRaw_of_text ht (Bool.eq_false_of_not_eq_true hnull), ← parse]
    exact (yields_parse hp raw.display).resolve_right fun h => h.1.elim (hover _) hlist

end Field

namespace RecordSchema

variable {s : RecordSchema} {ctx : RequestContext} {mode : InputMode} {payload raw : Value}
  {f : Field} {fs : List Field} {r : Reading} {row : Row}

/-- Nothing that a payload holds for a record is a failure to read: what stands under the name of a
field is taken or refused, and the entries of keyed lists can be read. -/
structure Readable (s : RecordSchema) (mode : InputMode) (payload : Value) : Prop where
  fields : ∀ f ∈ s.fields, readsPayload mode f = true → ∀ raw,
    payloadValue payload f.name = .ok raw → isMissing raw = false → ∃ v, f.parse raw = .ok v
  lists : ∀ f ∈ s.dependentFields, ¬ f.ListOverflows

theorem readable_of_total (h : ∀ f ∈ s.fields, f.Total) : s.Readable mode payload where
  fields := fun f hf _ raw _ _ => (h f hf).1 raw
  lists := fun f hf => (h f (List.mem_filter.mp hf).1).2

/-- A row can be looked for in a payload: it is an object, unless nothing is looked for. -/
def Suits (s : RecordSchema) (mode : InputMode) (payload : Value) : Prop :=
  (∃ es, payload = .map es) ∨ ∀ f ∈ s.fields, readsPayload mode f = false

theorem names_refusal : mode.Names (refusal mode f raw) := by
  unfold refusal
  split <;> exact ⟨rfl, rfl⟩

/-! ## Payloads that are looked through to the end -/

theorem Readable.legible (hr : s.Readable mode payload) (hs : s.Suits mode payload)
    (hf : f ∈ s.fields) (hread : readsPayload mode f = true) : Legible payload f := by
  rcases hs with ⟨es, rfl⟩ | hnone
  · have hraw : payloadValue (.map es) f.name = .ok (rawOf (.map es) f) := rfl
    exact ⟨hraw, hr.fields f hf hread _ hraw⟩
  · rw [hnone f hf] at hread
    cases hread

theorem names_entryProblems {m : Message} (h : m ∈ entryProblems ctx mode payload f) :
    mode.Names m := by
  rw [mem_entryProblems h]
  exact names_refusal

theorem judges_readFields (ctx : RequestContext) (hr : s.Readable mode payload)
    (hs : s.Suits mode payload) (r : Reading) :
    ∃ ms, (s.fields.foldlM (readInto ctx mode payload) r).Judges (r.accepted = true)
      (fun reading => reading.accepted = true) ms ∧ ∀ m ∈ ms, mode.Names m := by
  have hends : (s.fields.foldlM (readInto ctx mode payload) r).Ends _ _ :=
    ends_readFields (fun f hf => hr.legible hs hf) r
  refine ⟨_, ⟨_, hends, accepted_foldl_iff⟩, fun m hm => ?_⟩
  obtain ⟨f, -, hm⟩ := List.mem_flatMap.mp hm
  exact names_entryProblems hm

theorem names_dependentProblems {m : Message} (h : m ∈ s.dependentProblems mode row f) :
    mode.Names m := by
  unfold dependentProblems at h
  split at h
  · dsimp only at h
    split at h
    · cases h
    · rw [List.mem_singleton.mp h]
      exact ⟨rfl, rfl⟩
  · cases h

theorem judges_checkAll (s : RecordSchema) (mode : InputMode) (row : Row)
    (hlists : ∀ f ∈ fs, ¬ f.ListOverflows) (ok : Bool) :
    ∃ ms, (fs.foldlM (s.checkNext mode row) ok).Judges (ok = true) (fun ok => ok = true) ms ∧
      ∀ m ∈ ms, mode.Names m := by
  refine judges_foldlM (fun ok f hf => ?_) ok
  have hends : (s.checkDependent mode row f).Ends _ _ :=
    endsUnless_checkDependent.ends (hlists f hf)
  refine ⟨s.dependentProblems mode row f, ⟨_, hends.map, ?_⟩, fun _ => names_dependentProblems⟩
  show ((s.dependentProblems mode row f).isEmpty && ok) = true ↔ _
  rw [Bool.and_eq_true, List.isEmpty_iff, and_comm]

/-- A row comes out of a payload exactly if there was nothing to report about it, and all that is
reported names the object and the row that the reader was told. -/
theorem judges_parseRow (ctx : RequestContext) (hr : s.Readable mode payload)
    (hs : s.Suits mode payload) :
    ∃ ms, (s.parseRow ctx mode payload).Judges True (fun row => row.isSome = true) ms ∧
      ∀ m ∈ ms, mode.Names m := by
  obtain ⟨ms, ⟨reading, hfields, haccepted⟩, hms⟩ := judges_readFields ctx hr hs { row := s.newRow }
  obtain ⟨ms', ⟨ok, hlists, hok⟩, hms'⟩ :=
    judges_checkAll s mode reading.row hr.lists reading.accepted
  refine ⟨ms ++ ms', ⟨_, hfields.bind hlists.map, ?_⟩, List.forall_mem_append.mpr ⟨hms, hms'⟩⟩
  have hnone : ok = true ↔ ms ++ ms' = [] := by
    rw [List.append_eq_nil_iff]
    exact hok.trans (and_congr_left' (haccepted.trans (and_iff_right rfl)))
  rw [true_and, ← hnone]
  cases ok <;> simp

/-! ## Payloads that are no objects -/

theorem notAMap_of_not_suits (h : ¬ s.Suits mode payload) (name : String) :
    payloadValue payload name = .error .notAMap := by
  cases payload with
  | map es => exact absurd (.inl ⟨es, rfl⟩) h
  | _ => rfl

/-- Reading is a failure at the first field that is looked for. -/
theorem ends_readFields_notAMap (hp : ∀ name, payloadValue payload name = .error .notAMap)
    (h : ∃ f ∈ fs, readsPayload mode f = true) (r : Reading) :
    (fs.foldlM (readInto ctx mode payload) r).Ends (.error .notAMap) [] := by
  induction fs generalizing r with
  | nil => exact absurd h (by simp)
  | cons f fs ih =>
    rw [List.foldlM_cons]
    by_cases hread : readsPayload mode f = true
    · have hfield : (readField ctx mode payload f).Ends (.error .notAMap) [] := by
        rw [readField_eq, if_pos hread, readPayload, hp]
        exact ends_known.bind_error
      exact hfield.bind_error.bind_error
    · have hfield : (readField ctx mode payload f).Ends (.ok (contextEntry ctx mode f)) [] := by
        rw [readField_eq, if_neg hread]
        exact ends_pure
      have hrest : ∃ g ∈ fs, readsPayload mode g = true := by
        obtain ⟨g, hg, hreads⟩ := h
        rcases List.mem_cons.mp hg with rfl | hg
        · exact absurd hreads hread
        · exact ⟨g, hg, hreads⟩
      exact hfield.map.then (ih hrest _)

/-- What is no object cannot be read, and nothing is reported about it. -/
theorem ends_parseRow_notAMap (h : ¬ s.Suits mode payload) :
    (s.parseRow ctx mode payload).Ends (.error .notAMap) [] := by
  have hreads : ∃ f ∈ s.fields, readsPayload mode f = true := by
    by_contra hnone
    push Not at hnone
    exact h (.inr fun f hf => Bool.eq_false_of_not_eq_true (hnone f hf))
  exact (ends_readFields_notAMap (notAMap_of_not_suits h) hreads _).bind_error

end RecordSchema

end Tablewright
