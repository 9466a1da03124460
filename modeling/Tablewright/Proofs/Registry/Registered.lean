import Tablewright.Proofs.Registry.Keeping

/-! What is registered. Whatever a registry was told, its records have schemas without faults,
and its links are between records that it knows. So a mapping can be built for each record that
is mapped to a table, and each link whose fields are found. -/

namespace Tablewright

open Check

theorem Entries.mem_of_get? {α : Type} {name : String} {a : α} {es : List (String × α)}
    (h : get? name es = some a) : (name, a) ∈ es := by
  obtain ⟨e, he, rfl⟩ := Option.map_eq_some_iff.mp h
  have hname := List.find?_some he
  rw [beq_iff_eq] at hname
  exact hname ▸ List.mem_of_find?_eq_some he

namespace Records

open Registry (Action Reply)

variable {told next : Records}

theorem schema_eq_ok {name : String} {s : RecordSchema} :
    told.schema name = .ok s ↔ Entries.get? name told.schemas = some s := by
  unfold schema
  cases Entries.get? name told.schemas <;> simp

/-- Schemas have no faults, and links are between registered records. -/
structure Standing (told : Records) : Prop where
  valid : ∀ name s, told.schema name = .ok s → s.isValid = true
  parents : ∀ d ∈ told.links, ∃ s, told.schema d.parent = .ok s
  children : ∀ d ∈ told.links, ∃ s, told.schema d.child = .ok s

/-- A record that is registered again is still registered. -/
theorem schema_put {name : String} {s t : RecordSchema} (h : told.schema name = .ok t) :
    ∃ t', { told with schemas := Entries.put s.name s told.schemas }.schema name = .ok t' := by
  simp only [schema_eq_ok, Entries.get?_put] at h ⊢
  split
  · exact ⟨s, rfl⟩
  · exact ⟨t, h⟩

theorem Standing.register (h : told.Standing) {s : RecordSchema} (hs : told.register s = .ok next) :
    next.Standing := by
  rw [Records.register] at hs
  split at hs
  · rename_i hvalid
    cases hs
    refine ⟨?_, ?_, ?_⟩
    · intro name t ht
      rw [schema_eq_ok, Entries.get?_put] at ht
      split at ht
      · cases ht
        exact hvalid
      · exact h.valid name t (schema_eq_ok.mpr ht)
    · intro d hd
      obtain ⟨t, ht⟩ := h.parents d hd
      exact schema_put ht
    · intro d hd
      obtain ⟨t, ht⟩ := h.children d hd
      exact schema_put ht
  · cases hs

theorem Standing.link (h : told.Standing) {d : LinkDeclaration} (hd : told.link d = .ok next) :
    next.Standing := by
  obtain ⟨p, hp, hd⟩ := ValueType.bind_eq_ok hd
  obtain ⟨c, hc, hd⟩ := ValueType.bind_eq_ok hd
  cases hd
  refine ⟨h.valid, ?_, ?_⟩
  · intro e he
    rcases List.mem_append.mp he with he | he
    · exact h.parents e he
    · rw [List.mem_singleton.mp he]
      exact ⟨p, hp⟩
  · intro e he
    rcases List.mem_append.mp he with he | he
    · exact h.children e he
    · rw [List.mem_singleton.mp he]
      exact ⟨c, hc⟩

theorem Standing.perform (h : told.Standing) {a : Action} {reply : Reply}
    (ha : told.perform a = .ok (reply, next)) : next.Standing := by
  cases a with
  | declare d =>
    obtain ⟨s, -, ha⟩ := ValueType.bind_eq_ok ha
    obtain ⟨r, hr, ha⟩ := ValueType.bind_eq_ok ha
    cases ha
    exact h.register hr
  | register s =>
    obtain ⟨r, hr, ha⟩ := ValueType.bind_eq_ok ha
    cases ha
    exact h.register hr
  | link d =>
    obtain ⟨r, hr, ha⟩ := ValueType.bind_eq_ok ha
    cases ha
    exact h.link hr
  | schema name | mapping name | linkedRecord name =>
    obtain ⟨_, -, ha⟩ := ValueType.bind_eq_ok ha
    cases ha
    exact h

theorem Standing.after (h : told.Standing) (as : List Action) : (told.after as).Standing := by
  induction as generalizing told with
  | nil => exact h
  | cons a as ih =>
    rw [Records.after, List.foldl_cons]
    refine ih ?_
    cases ha : told.perform a with
    | error e => exact h
    | ok r => exact h.perform ha

/-! ## Builds that succeed -/

theorem ended_of_ends {α : Type} {c : Check α} {r : Except Failure α} {ms : List Message}
    (h : c.Ends r ms) : ended c = r := by
  obtain ⟨log, hlog⟩ := h {}
  rw [ended, start, hlog]

/-- Every registered record is mapped to a table. -/
def Mapped (told : Records) : Prop := ∀ e ∈ told.schemas, e.2.isDbRecord = true

instance (told : Records) : Decidable told.Mapped :=
  inferInstanceAs (Decidable (∀ e ∈ told.schemas, _))

/-- An empty expression for stamps leaves them to the settings, which are not at hand if nothing
else is left to them. -/
def HasClock (told : Records) : Prop := told.clock = some "" → told.nullAsZero = none

instance (told : Records) : Decidable told.HasClock := inferInstanceAs (Decidable (_ → _))

theorem HasClock.choose (h : told.HasClock) :
    ∃ c, Mapping.chooseClock told.settings told.nullAsZero told.clock = .ok c := by
  unfold Mapping.chooseClock
  split
  · exact ⟨_, rfl⟩
  · rename_i clock hclock
    split
    · exact ⟨_, rfl⟩
    · rename_i hempty
      rw [h (hclock.trans (congrArg some (not_not.mp hempty)))]
      exact ⟨_, rfl⟩

theorem ends_noteLimits {m : Mapping} : m.noteLimits.Ends (.ok ()) [] := by
  unfold Mapping.noteLimits
  split
  · exact ends_note
  · split
    · exact ends_note
    · exact ends_pure

theorem Standing.exists_mapping (h : told.Standing) (hm : told.Mapped) (hc : told.HasClock)
    {name : String} {s : RecordSchema} (hs : told.schema name = .ok s) :
    ∃ m, told.mapping name = .ok m ∧ m.schema = s := by
  obtain ⟨clock, hclock⟩ := hc.choose
  have hvalid : s.isValid = true := h.valid name s hs
  have hdb : s.isDbRecord = true := hm _ (Entries.mem_of_get? (schema_eq_ok.mp hs))
  have hends : (Mapping.build told.settings told.nullAsZero told.clock s).Ends
      (.ok ⟨s, told.nullAsZero.getD told.settings.treatNullAsZero, clock⟩) [] := by
    simp only [Mapping.build, hvalid, hdb, Bool.not_true, Bool.false_eq_true, if_false, hclock]
    exact ends_known.then (ends_noteLimits.then ends_pure)
  have hmapping : told.mapping name =
      ended (Mapping.build told.settings told.nullAsZero told.clock s) := by
    rw [mapping, hs]
    rfl
  exact ⟨_, hmapping.trans (ended_of_ends hends), rfl⟩

end Records

/-- The fields that the declaration names are found in the two records, those of the child among
its columns. -/
def LinkDeclaration.Resolves (d : LinkDeclaration) (p c : RecordSchema) : Prop :=
  (∀ name ∈ d.parentFields, (p.field? name).isSome = true) ∧
    ∀ name ∈ d.childFields, (c.field? name).any Field.isColumn = true

instance (d : LinkDeclaration) (p c : RecordSchema) : Decidable (d.Resolves p c) :=
  inferInstanceAs (Decidable (_ ∧ _))

namespace Link

theorem exists_resolve {s : RecordSchema} {side : String} {mustBeColumn : Bool}
    {names : List String} (h : ∀ name ∈ names, ∃ f, s.field? name = some f ∧
      (mustBeColumn = true → f.isColumn = true)) :
    ∃ fs, resolve s side mustBeColumn names = .ok fs := by
  have hyields : Yields False (resolve s side mustBeColumn names) := yields_mapM fun name hname => by
    obtain ⟨f, hf, hcolumn⟩ := h name hname
    have hfound : (mustBeColumn && !f.isColumn) = false := by
      cases mustBeColumn with
      | false => rfl
      | true => rw [hcolumn rfl]; rfl
    simp only [hf, hfound]
    exact .inl ⟨f, rfl⟩
  exact hyields.resolve_right fun hfails => hfails.1

theorem exists_build {d : LinkDeclaration} {p c : Mapping}
    (hpaired : d.parentFields.length = d.childFields.length) (h : d.Resolves p.schema c.schema) :
    ∃ l, Records.ended (build d p c) = .ok l := by
  obtain ⟨ps, hps⟩ : ∃ ps, resolve p.schema "parent" false d.parentFields = .ok ps :=
    exists_resolve fun name hname => by
      obtain ⟨f, hf⟩ := Option.isSome_iff_exists.mp (h.1 name hname)
      exact ⟨f, hf, fun hfalse => by cases hfalse⟩
  obtain ⟨cs, hcs⟩ : ∃ cs, resolve c.schema "child" true d.childFields = .ok cs :=
    exists_resolve fun name hname => by
      obtain ⟨f, hf, hcolumn⟩ := (Option.any_eq_true ..).mp (h.2 name hname)
      exact ⟨f, hf, fun _ => hcolumn⟩
  have hpairs : ∃ pairs, (findPairs d p.schema c.schema).Ends (.ok pairs) [] := by
    rw [findPairs, if_neg (not_not.mpr hpaired)]
    split
    · exact ⟨_, ends_note.then ends_pure⟩
    · simp only [resolvePairs, hps, hcs, bind, Except.bind]
      exact ⟨_, ends_known⟩
  obtain ⟨pairs, hpairs⟩ := hpairs
  exact ⟨_, Records.ended_of_ends (hpairs.then ends_pure)⟩

end Link

end Tablewright
