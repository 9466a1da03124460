import Tablewright.Proofs.Judging
import Tablewright.Proofs.Schema.Entry

/-! What is reported about each field of a payload. Every message names a field, and a field is
named if what was given for it is refused, or if the row has at its place a value outside the list
that the row selects. Both can come together, since a refused field keeps its default: that it is
outside its list is reported as well, although nobody gave it. Every other field is named once at
most. -/

namespace Tablewright.RecordSchema

open Check

variable {s : RecordSchema} {ctx : RequestContext} {mode : InputMode} {payload : Value} {f : Field}
  {fs : List Field} {r : Option Row} {row : Row} {j k : Journal}

/-- The messages that name a field. -/
def about (f : Field) (ms : List Message) : List Message := ms.filter (·.field == some f.name)

/-- What is given for a field is refused: it is missing and needed, or no value of the field. -/
def Refuses (mode : InputMode) (payload : Value) (f : Field) : Prop :=
  readsPayload mode f = true ∧ if isMissing (rawOf payload f) then needsInput mode f = true
    else f.parse (rawOf payload f) = .ok none

/-- A value is outside the keyed list that a row selects for a field. -/
def Outside (s : RecordSchema) (row : Row) (f : Field) (v : Value) : Prop :=
  ∃ l g, f.list = some l ∧ f.listKey.bind (s.fields[·]?) = some g ∧
    l.has v f.valueType (row.getD g.index .null) = false

/-- A row has at a field's place, which was not left to the caller, a value outside its list. -/
def Misfits (s : RecordSchema) (mode : InputMode) (row : Row) (f : Field) : Prop :=
  f.index ∉ mode.skip ∧ s.Outside row f (row.getD f.index .null)

/-- Whether a field takes nothing for input that it can read. -/
instance {found : Except Failure (Option Value)} : Decidable (found = .ok none) :=
  match found with
  | .ok none => isTrue rfl
  | .ok (some _) => isFalse nofun
  | .error _ => isFalse nofun

instance : Decidable (Refuses mode payload f) :=
  inferInstanceAs (Decidable (readsPayload mode f = true ∧ if isMissing (rawOf payload f) = true
    then needsInput mode f = true else f.parse (rawOf payload f) = .ok none))

/-! ## Messages and the fields that they name -/

theorem filter_of_named {ms : List Message} {name : String} (h : ∀ m ∈ ms, m.field = some name) :
    ms.filter (·.field == some f.name) = if name = f.name then ms else [] := by
  by_cases hname : name = f.name
  · rw [if_pos hname, List.filter_eq_self]
    intro m hm
    rw [h m hm, hname, beq_self_eq_true]
  · rw [if_neg hname, List.filter_eq_nil_iff]
    intro m hm
    rw [h m hm, beq_iff_eq, Option.some.injEq]
    exact hname

/-- Where each field has its own name, the messages that name one are those reported for it. -/
theorem about_flatMap {problems : Field → List Message} (hnames : (fs.map (·.name)).Nodup)
    (hf : f ∈ fs) (hnamed : ∀ g, ∀ m ∈ problems g, m.field = some g.name) :
    about f (fs.flatMap problems) = problems f := by
  induction fs with
  | nil => cases hf
  | cons g fs ih =>
    obtain ⟨hg, hfs⟩ := List.nodup_cons.mp hnames
    rw [about, List.flatMap_cons, List.filter_append, filter_of_named (hnamed g)]
    rcases List.mem_cons.mp hf with rfl | hf
    · have hrest : (fs.flatMap problems).filter (·.field == some f.name) = [] := by
        rw [List.filter_eq_nil_iff]
        intro m hm hname
        obtain ⟨g, hmem, hm⟩ := List.mem_flatMap.mp hm
        rw [hnamed g m hm, beq_iff_eq, Option.some.injEq] at hname
        exact hg (List.mem_map.mpr ⟨g, hmem, hname⟩)
      rw [if_pos rfl, hrest, List.append_nil]
    · have hne : g.name ≠ f.name := fun hname => hg (List.mem_map.mpr ⟨f, hf, hname.symm⟩)
      rw [if_neg hne, List.nil_append]
      exact ih hfs hf

theorem named_entryProblems : ∀ m ∈ entryProblems ctx mode payload f, m.field = some f.name := by
  intro m hm
  rw [mem_entryProblems hm, refusal]
  split <;> rfl

/-- The one message about a value in a keyed list. -/
theorem dependentProblems_cases (s : RecordSchema) (mode : InputMode) (row : Row) (f : Field) :
    s.dependentProblems mode row f = [] ∧ ¬ s.Misfits mode row f ∨
      (∃ m, s.dependentProblems mode row f = [m] ∧ m.field = some f.name) ∧
        s.Misfits mode row f := by
  unfold dependentProblems
  split
  · rename_i l g hl hg
    dsimp only
    split
    · rename_i hfine
      refine .inl ⟨rfl, fun hbad => ?_⟩
      obtain ⟨hskip, l', g', hl', hg', hout⟩ := hbad
      obtain rfl := Option.some.inj (hl.symm.trans hl')
      obtain rfl := Option.some.inj (hg.symm.trans hg')
      -- Null is in every list, so a value that is outside is not null and was asked about.
      have hnull : (row.getD f.index .null).isNull = false := by
        rw [ValueList.has, Bool.or_eq_false_iff] at hout
        exact hout.1
      rw [hout, hnull, Bool.or_false, Bool.or_false, List.contains_iff_mem] at hfine
      exact hskip hfine
    · rename_i hbad
      simp only [Bool.or_eq_true, not_or, Bool.not_eq_true, List.contains_eq_mem,
        decide_eq_false_iff_not] at hbad
      exact .inr ⟨⟨_, rfl, rfl⟩, hbad.1.1, l, g, hl, hg, hbad.2⟩
  · rename_i hnone
    refine .inl ⟨rfl, fun hbad => ?_⟩
    obtain ⟨-, l, g, hl, hg, -⟩ := hbad
    exact hnone l g hl hg

theorem named_dependentProblems : ∀ m ∈ s.dependentProblems mode row f, m.field = some f.name := by
  intro m hm
  rcases s.dependentProblems_cases mode row f with ⟨hnone, -⟩ | ⟨⟨m', hone, hname⟩, -⟩
  · rw [hnone] at hm
    cases hm
  · rw [hone, List.mem_singleton] at hm
    exact hm ▸ hname

theorem dependentProblems_eq_nil_iff :
    s.dependentProblems mode row f = [] ↔ ¬ s.Misfits mode row f := by
  rcases s.dependentProblems_cases mode row f with ⟨hnone, hfits⟩ | ⟨⟨m, hone, -⟩, hmisfits⟩
  · exact iff_of_true hnone hfits
  · exact iff_of_false (by rw [hone]; exact List.cons_ne_nil _ _) (not_not.mpr hmisfits)

instance : Decidable (s.Misfits mode row f) :=
  decidable_of_iff (¬ (s.dependentProblems mode row f).isEmpty) <| by
    rw [List.isEmpty_iff, dependentProblems_eq_nil_iff, not_not]

/-- Fields without a list key have nothing to be reported about a keyed list. -/
theorem dependentProblems_flatMap :
    s.dependentFields.flatMap (s.dependentProblems mode row) =
      s.fields.flatMap (s.dependentProblems mode row) := by
  rw [dependentFields]
  generalize s.fields = gs
  induction gs with
  | nil => rfl
  | cons g gs ih =>
    by_cases hkey : g.listKey.isSome = true
    · rw [List.filter_cons, if_pos hkey, List.flatMap_cons, List.flatMap_cons, ih]
    · have hnone : s.dependentProblems mode row g = [] := by
        unfold dependentProblems
        rw [Option.not_isSome_iff_eq_none.mp hkey, Option.bind_none]
        split
        · rename_i hg
          cases hg
        · rfl
      rw [List.filter_cons, if_neg hkey, List.flatMap_cons, hnone, List.nil_append, ih]

/-! ## Refused fields -/

theorem rejected_iff (ctx : RequestContext) (h : readsPayload mode f = true → Legible payload f) :
    entryOf ctx mode payload f = .rejected ↔ Refuses mode payload f := by
  unfold entryOf Refuses
  by_cases hread : readsPayload mode f = true
  · rw [if_pos hread, and_iff_right hread, placed]
    by_cases hmissing : isMissing (rawOf payload f) = true
    · rw [if_pos hmissing, if_pos hmissing]
      cases needsInput mode f <;> simp
    · rw [if_neg hmissing, if_neg hmissing]
      obtain ⟨v, hv⟩ := (h hread).parsed (Bool.eq_false_iff.mpr hmissing)
      rw [Field.taken?, hv]
      cases v <;> simp [Except.toOption]
  · rw [if_neg hread]
    refine iff_of_false ?_ fun h => hread h.1
    unfold contextEntry
    split
    · simp
    · split <;> simp

/-- The one message about what is given for a field. -/
theorem entryProblems_cases (ctx : RequestContext)
    (h : readsPayload mode f = true → Legible payload f) :
    entryProblems ctx mode payload f = [] ∧ ¬ Refuses mode payload f ∨
      (∃ m, entryProblems ctx mode payload f = [m]) ∧ Refuses mode payload f := by
  rw [← rejected_iff ctx h, entryProblems]
  cases entryOf ctx mode payload f with
  | rejected => exact .inr ⟨⟨_, rfl⟩, rfl⟩
  | keep | put => exact .inl ⟨rfl, by simp⟩

/-- A refused field has its default in the row, and it is the default that the list is asked for. -/
theorem Sound.misfits_of_refuses (hs : s.Sound) (hf : f ∈ s.fields)
    (h : readsPayload mode f = true → Legible payload f) (hrefused : Refuses mode payload f) :
    s.Misfits mode (s.rowOf ctx mode payload) f ↔
      s.Outside (s.rowOf ctx mode payload) f f.default := by
  have hdefault : (s.rowOf ctx mode payload).getD f.index .null = f.default := by
    rw [hs.getD_rowOf hf, (rejected_iff ctx h).mpr hrefused]
    rfl
  have hread : f.index ∉ mode.skip := by
    intro hskip
    have hread := hrefused.1
    rw [readsPayload, List.contains_iff_mem.mpr hskip] at hread
    cases hread
  rw [Misfits, hdefault, and_iff_right hread]

/-- The messages that name a field: one if what was given for it is refused, and one if its place in
the row has a value outside its list. -/
theorem about_problemsOf (hs : s.Sound) (hf : f ∈ s.fields) :
    about f (s.problemsOf ctx mode payload) = entryProblems ctx mode payload f ++
      s.dependentProblems mode (s.rowOf ctx mode payload) f := by
  have hplace : about f (s.fields.flatMap (entryProblems ctx mode payload)) =
      entryProblems ctx mode payload f := about_flatMap hs.names hf fun g => named_entryProblems
  have hlist : about f (s.fields.flatMap (s.dependentProblems mode (s.rowOf ctx mode payload))) =
      s.dependentProblems mode (s.rowOf ctx mode payload) f :=
    about_flatMap hs.names hf fun g => named_dependentProblems
  rw [about] at hplace hlist
  rw [about, problemsOf, dependentProblems_flatMap, List.filter_append, hplace, hlist]

theorem names_problemsOf : ∀ m ∈ s.problemsOf ctx mode payload,
    ∃ f ∈ s.fields, m.field = some f.name := by
  intro m hm
  rw [problemsOf, dependentProblems_flatMap] at hm
  rcases List.mem_append.mp hm with hm | hm
  · obtain ⟨f, hf, hm⟩ := List.mem_flatMap.mp hm
    exact ⟨f, hf, named_entryProblems m hm⟩
  · obtain ⟨f, hf, hm⟩ := List.mem_flatMap.mp hm
    exact ⟨f, hf, named_dependentProblems m hm⟩

/-- Reading a row that comes to an end gives none exactly if something was reported. All messages
name fields, and a field is named exactly if what was given for it is refused, or if the row has a
value outside its list. It is named twice, and not more often, exactly if what was given is refused
and the default, which then stands in the row, is outside the list as well. -/
theorem parseRow_names_fields (hs : s.Valid) (h : (s.parseRow ctx mode payload).Returns j r k) :
    ∃ ms, k.messages = j.messages ++ ms ∧ (r = none ↔ ms ≠ []) ∧
      (∀ m ∈ ms, ∃ f ∈ s.fields, m.field = some f.name) ∧
      ∀ f ∈ s.fields,
        (about f ms ≠ [] ↔
          Refuses mode payload f ∨ s.Misfits mode (s.rowOf ctx mode payload) f) ∧
        (about f ms).length ≤ 2 ∧
        ((about f ms).length = 2 ↔
          Refuses mode payload f ∧ s.Outside (s.rowOf ctx mode payload) f f.default) := by
  have hsound := hs.sound
  have hrow := hsound.legibleRow_of_returns h
  obtain ⟨hr, hk⟩ := (hrow.ends hsound).eq_of_returns h
  refine ⟨s.problemsOf ctx mode payload, hk, ?_, names_problemsOf, fun f hf => ?_⟩
  · rw [hr, ne_eq, ← List.isEmpty_iff]
    cases (s.problemsOf ctx mode payload).isEmpty <;> simp
  · rw [about_problemsOf hsound hf]
    -- Each of the two passes over the fields has one message about this one, or none.
    rcases entryProblems_cases ctx (hrow.places f hf) with
      ⟨hplace, hkept⟩ | ⟨⟨m, hplace⟩, hrefused⟩
    · rcases s.dependentProblems_cases mode (s.rowOf ctx mode payload) f with
        ⟨hlist, hfits⟩ | ⟨⟨m', hlist, -⟩, hmisfits⟩
      · simp [hplace, hlist, hkept, hfits]
      · simp [hplace, hlist, hkept, hmisfits]
    · rw [← hsound.misfits_of_refuses hf (hrow.places f hf) hrefused]
      rcases s.dependentProblems_cases mode (s.rowOf ctx mode payload) f with
        ⟨hlist, hfits⟩ | ⟨⟨m', hlist, -⟩, hmisfits⟩
      · simp [hplace, hlist, hrefused, hfits]
      · simp [hplace, hlist, hrefused, hmisfits]

/-! ## Addresses in districts -/

/-- An address without a district is in the one of Bangalore. -/
def addressDeclaration : RecordDeclaration where
  name := "address"
  nameInDb := some "addresses"
  useTimestampCheck := false
  operations := []
  fields := [
    invoiceColumn "number" "number" .integer .primaryKey,
    invoiceColumn "state" "state" .text .requiredData,
    { invoiceColumn "district" "district" .text .optionalData with
      maxLength := some 3
      defaultValue := some "BLR"
      listKey := some "state"
      valueList := some ⟨"districts", [], [("KA", ["BLR", "MYS"]), ("TN", ["MAA"])]⟩ }]

def address : RecordSchema := declared addressDeclaration

theorem address_valid : address.Valid := valid_declared (by decide +kernel)

/-- An address in another state, with too long a text for its district. -/
def farAddress : Value :=
  .map [("number", .int 1), ("state", .text "TN"), ("district", .text "Chennai")]

theorem parseRow_names_fields_address :
    ∃ k, (address.parseRow {} {} farAddress).Returns {} none k ∧ ∃ f ∈ address.fields,
      (about f k.messages).length = 2 ∧ Refuses {} farAddress f ∧
        address.Outside (address.rowOf {} {} farAddress) f f.default := by
  obtain ⟨k, hk⟩ := returns_of_missed (c := address.parseRow {} {} farAddress) (j := {})
    (by decide +kernel)
  obtain ⟨ms, hms, -, -, hnamed⟩ := parseRow_names_fields address_valid hk
  have hms : k.messages = ms := hms
  have htwice : address.fields.any fun f =>
      (about f (address.parseRow {} {} farAddress).problems).length == 2 := by
    decide +kernel
  rw [hk.problems_eq, hms] at htwice
  obtain ⟨f, hf, htwo⟩ := List.any_eq_true.mp htwice
  have htwo := beq_iff_eq.mp htwo
  exact ⟨k, hk, f, hf, hms ▸ htwo, (hnamed f hf).2.2.mp htwo⟩

/-- Two messages are about one district: the text that is given for it is refused, and so is the
default in its place, which nobody has given. -/
theorem district_reported_twice :
    ∃ k, (address.parseRow {} {} farAddress).Returns {} none k ∧
      k.messages.map (·.field) = [some "district", some "district"] := by
  obtain ⟨k, hk⟩ := returns_of_missed (c := address.parseRow {} {} farAddress) (j := {})
    (by decide +kernel)
  have htwice : (address.parseRow {} {} farAddress).problems.map (·.field) =
      [some "district", some "district"] := by
    decide +kernel
  exact ⟨k, hk, hk.problems_eq ▸ htwice⟩

end Tablewright.RecordSchema
