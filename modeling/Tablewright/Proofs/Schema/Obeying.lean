import Tablewright.Proofs.Schema.NormalForm
import Tablewright.Proofs.Schema.Reporting

/-! What holds of a row that was accepted. Each value that did not come from the request's context
keeps the rules of its field, and is in the list which the row selects for it. A list that is the
same for all rows is asked about what is given only: a default stands in the row without having
been looked up. -/

namespace Tablewright

open Check

/-- The field's value is the request's tenant or user. -/
def Field.fromContext (f : Field) : Bool :=
  match f.role with
  | some .tenantKey | some .createdBy | some .modifiedBy => true
  | _ => false

namespace RecordSchema

variable {s : RecordSchema} {ctx : RequestContext} {mode : InputMode} {payload : Value} {f : Field}
  {row : Row} {j k : Journal}

/-- Nothing is read for a field: what is given for it is missing, or it is not asked for. -/
def LeftOut (mode : InputMode) (payload : Value) (f : Field) : Prop :=
  readsPayload mode f = true → isMissing (rawOf payload f) = true

/-! ## Schemas -/

theorem Valid.admits_default (hs : s.Valid) (hf : f ∈ s.fields) :
    f.schema.admits f.default = .ok true := by
  rcases hs.default_cases hf with hnull | ⟨-, hkept⟩
  · rw [hnull]
    rfl
  · exact hkept

theorem position_lt {ds : List FieldDeclaration} {name : String} {n : Nat}
    (h : position? ds name = some n) : n < ds.length := by
  obtain ⟨e, he, rfl⟩ := Option.map_eq_some_iff.mp h
  have hmem := List.mem_reverse.mp (List.mem_of_find?_eq_some he)
  exact (List.mem_zipIdx' hmem).1

/-- A declaration without a fault names a declared field as the key of its keyed list. -/
theorem listKeyOf_of_keyed {ds : List FieldDeclaration} {d : FieldDeclaration}
    (hkeyed : hasKeyedList d = true) (hfaults : listFaults ds d = []) :
    ∃ i, listKeyOf ds d = some i ∧ i < ds.length := by
  rw [listKeyOf, if_pos hkeyed]
  unfold listFaults at hfaults
  split at hfaults
  · rename_i name hname
    cases hposition : position? ds name with
    | none =>
      rw [hposition] at hfaults
      cases hfaults
    | some i =>
      rw [hname]
      exact ⟨i, hposition, position_lt hposition⟩
  · rw [if_pos hkeyed] at hfaults
    cases hfaults

/-- A keyed list stands with a field that selects from it. -/
theorem Valid.key_of_keyed (hs : s.Valid) (hf : f ∈ s.fields) {l : ValueList}
    (hl : f.list = some l) (hkeyed : l.isKeyed = true) :
    ∃ g ∈ s.fields, f.listKey = some g.index := by
  obtain ⟨d, hlength, hdeclares⟩ := hs.declares
  obtain ⟨e, -, hfaults, v, -, rfl⟩ := hdeclares f hf
  have hhas : hasKeyedList e.1 = true := by
    rw [hasKeyedList, show e.1.valueList = some l from hl]
    exact hkeyed
  obtain ⟨i, hi, hlt⟩ := listKeyOf_of_keyed hhas hfaults
  rw [hlength] at hlt
  refine ⟨s.fields[i], List.getElem_mem hlt, ?_⟩
  rw [hs.sound.index_eq i _ (List.getElem?_eq_getElem hlt)]
  exact hi

/-! ## Rows -/

/-- A payload whose row is accepted: nothing that is given is refused, and nothing in the row is
outside the keyed list that the row selects. -/
structure Accepts (s : RecordSchema) (ctx : RequestContext) (mode : InputMode) (payload : Value) :
    Prop where
  legible : s.LegibleRow ctx mode payload
  placed : ∀ f ∈ s.fields, entryOf ctx mode payload f ≠ .rejected
  fits : ∀ f ∈ s.fields, ¬ s.Misfits mode (s.rowOf ctx mode payload) f

theorem problemsOf_eq_nil_iff : s.problemsOf ctx mode payload = [] ↔
    (∀ f ∈ s.fields, entryOf ctx mode payload f ≠ .rejected) ∧
      ∀ f ∈ s.fields, ¬ s.Misfits mode (s.rowOf ctx mode payload) f := by
  have hplace (f : Field) :
      entryProblems ctx mode payload f = [] ↔ entryOf ctx mode payload f ≠ .rejected := by
    unfold entryProblems
    cases entryOf ctx mode payload f <;> simp [Entry.problems]
  simp only [problemsOf, dependentProblems_flatMap, List.append_eq_nil_iff,
    List.flatMap_eq_nil_iff, hplace, dependentProblems_eq_nil_iff]

theorem Accepts.ends (h : s.Accepts ctx mode payload) (hs : s.Sound) :
    (s.parseRow ctx mode payload).Ends (.ok (some (s.rowOf ctx mode payload))) [] := by
  have hends := h.legible.ends hs
  rwa [problemsOf_eq_nil_iff.mpr ⟨h.placed, h.fits⟩] at hends

/-- A row that comes out is the one that the payload describes, and was accepted. -/
theorem Sound.accepts (hs : s.Sound) (h : (s.parseRow ctx mode payload).Returns j (some row) k) :
    row = s.rowOf ctx mode payload ∧ s.Accepts ctx mode payload := by
  have hlegible := hs.legibleRow_of_returns h
  obtain ⟨hrow, -⟩ := (hlegible.ends hs).eq_of_returns h
  cases hproblems : s.problemsOf ctx mode payload with
  | nil =>
    rw [hproblems] at hrow
    obtain ⟨hplaced, hfits⟩ := problemsOf_eq_nil_iff.mp hproblems
    exact ⟨Option.some.inj hrow, hlegible, hplaced, hfits⟩
  | cons m ms =>
    rw [hproblems] at hrow
    cases hrow

theorem contextEntry_of_own (h : f.fromContext = false) : contextEntry ctx mode f = .keep := by
  unfold contextEntry
  split
  · rfl
  · split <;> first | rfl | (rename_i hrole; rw [Field.fromContext, hrole] at h; cases h)

/-- A place whose field was left out has its default, any other what was taken for it. -/
theorem entry_of_own (hown : f.fromContext = false) (h : entryOf ctx mode payload f ≠ .rejected) :
    LeftOut mode payload f ∧ entryOf ctx mode payload f = .keep ∨
      ∃ v, f.parse (rawOf payload f) = .ok (some v) ∧ entryOf ctx mode payload f = .put v := by
  unfold entryOf at h ⊢
  by_cases hread : readsPayload mode f = true
  · rw [if_pos hread] at h ⊢
    rcases placed_cases (needsInput mode f) f (rawOf payload f) with
      hrejected | ⟨hmissing, -, hkept⟩ | ⟨v, -, htaken, hput⟩
    · exact absurd hrejected h
    · exact .inl ⟨fun _ => hmissing, hkept⟩
    · exact .inr ⟨v, htaken, hput⟩
  · rw [if_neg hread]
    exact .inl ⟨fun h => absurd h hread, contextEntry_of_own hown⟩

namespace Accepts

/-- The value of a field keeps its rules, whether it was given or is the default. -/
theorem keeps_rules (h : s.Accepts ctx mode payload) (hs : s.Valid) (hf : f ∈ s.fields)
    (hown : f.fromContext = false) :
    f.schema.admits ((entryOf ctx mode payload f).value f.default) = .ok true := by
  rcases entry_of_own hown (h.placed f hf) with ⟨-, hkept⟩ | ⟨v, htaken, hput⟩
  · rw [hkept]
    exact hs.admits_default hf
  · rw [hput]
    exact (Field.parse_iff.mp htaken).2.1

/-- A keyed list was asked about the row as it came out: it makes no difference where the values in
the row are from. -/
theorem in_keyed_list (h : s.Accepts ctx mode payload) (hs : s.Valid) (hf : f ∈ s.fields)
    (hskip : f.index ∉ mode.skip) {l : ValueList} (hl : f.list = some l)
    (hkeyed : l.isKeyed = true) :
    ∃ g ∈ s.fields, f.listKey = some g.index ∧
      l.has ((entryOf ctx mode payload f).value f.default) f.valueType
        ((s.rowOf ctx mode payload).getD g.index .null) = true := by
  obtain ⟨g, hg, hkey⟩ := hs.key_of_keyed hf hl hkeyed
  have hselects : f.listKey.bind (s.fields[·]?) = some g := by
    rw [hkey]
    exact hs.sound.at_index hg
  refine ⟨g, hg, hkey, ?_⟩
  by_contra hout
  refine h.fits f hf ⟨hskip, l, g, hl, hselects, ?_⟩
  rw [hs.sound.getD_rowOf hf]
  exact Bool.eq_false_of_not_eq_true hout

/-- A plain list was asked only if something was given for the field. -/
theorem in_plain_list (h : s.Accepts ctx mode payload) (hf : f ∈ s.fields)
    (hown : f.fromContext = false) {l : ValueList} (hl : f.list = some l)
    (hplain : l.isKeyed = false) :
    l.has ((entryOf ctx mode payload f).value f.default) f.valueType .null = true ∨
      LeftOut mode payload f ∧ (entryOf ctx mode payload f).value f.default = f.default := by
  rcases entry_of_own hown (h.placed f hf) with ⟨hout, hkept⟩ | ⟨v, htaken, hput⟩
  · rw [hkept]
    exact .inr ⟨hout, rfl⟩
  · have hamong := (Field.parse_iff.mp htaken).2.2 l hl hplain
    left
    rw [hput, Entry.value, ValueList.has, hplain]
    simp [hamong, Except.toOption]

end Accepts

/-- In a row that is accepted every value that did not come from the context keeps the rules of its
field. It is in the list that the row selects for it, if the list is keyed. It is in a plain list as
well, unless nothing was read for the field: then it is the default, in the list or not. -/
theorem accepted_obeys (hs : s.Valid) (h : (s.parseRow ctx mode payload).Returns j (some row) k)
    (hf : f ∈ s.fields) (hskip : f.index ∉ mode.skip) (hown : f.fromContext = false) :
    ∃ v, row[f.index]? = some v ∧ f.schema.admits v = .ok true ∧ ∀ l, f.list = some l →
      if l.isKeyed = true then
        ∃ g ∈ s.fields, f.listKey = some g.index ∧
          l.has v f.valueType (row.getD g.index .null) = true
      else l.has v f.valueType .null = true ∨ LeftOut mode payload f ∧ v = f.default := by
  obtain ⟨rfl, haccepts⟩ := hs.sound.accepts h
  refine ⟨_, hs.sound.rowOf_at hf, haccepts.keeps_rules hs hf hown, fun l hl => ?_⟩
  split
  · rename_i hkeyed
    exact haccepts.in_keyed_list hs hf hskip hl hkeyed
  · rename_i hplain
    exact haccepts.in_plain_list hf hown hl (Bool.eq_false_of_not_eq_true hplain)

/-! ## Tickets with a status -/

/-- A ticket is open or closed, but one of which nothing is said is new. -/
def ticketDeclaration : RecordDeclaration where
  name := "ticket"
  nameInDb := some "tickets"
  useTimestampCheck := false
  operations := []
  fields := [
    invoiceColumn "number" "number" .integer .primaryKey,
    { invoiceColumn "status" "status" .text .optionalData with
      defaultValue := some "new"
      valueList := some ⟨"states", ["open", "closed"], []⟩ }]

def ticket : RecordSchema := declared ticketDeclaration

theorem ticket_valid : ticket.Valid := valid_declared (by decide +kernel)

def closedTicket : Value := .map [("number", .int 1), ("status", .text "closed")]

theorem accepted_obeys_ticket :
    ∃ row k, (ticket.parseRow {} {} closedTicket).Returns {} (some row) k ∧
      ∀ f ∈ ticket.fields, ∃ v, row[f.index]? = some v ∧ f.schema.admits v = .ok true ∧
        ∀ l, f.list = some l → l.has v f.valueType .null = true := by
  obtain ⟨row, k, hrow, -⟩ := returns_of_found (c := ticket.parseRow {} {} closedTicket) (j := {})
    (by decide +kernel)
  have hown : ∀ f ∈ ticket.fields, f.fromContext = false := by decide +kernel
  have hgiven : ∀ f ∈ ticket.fields,
      readsPayload {} f = true ∧ isMissing (rawOf closedTicket f) = false := by
    decide +kernel
  have hplain : ∀ f ∈ ticket.fields, f.list.all (!·.isKeyed) = true := by decide +kernel
  refine ⟨row, k, hrow, fun f hf => ?_⟩
  obtain ⟨v, hv, hkept, hlist⟩ :=
    accepted_obeys ticket_valid hrow hf List.not_mem_nil (hown f hf)
  refine ⟨v, hv, hkept, fun l hl => ?_⟩
  have hl' := hplain f hf
  rw [hl, Option.all_some, Bool.not_eq_true'] at hl'
  have hin := hlist l hl
  rw [hl', if_neg Bool.false_ne_true] at hin
  refine hin.resolve_right fun hout => ?_
  cases (hgiven f hf).2.symm.trans (hout.1 (hgiven f hf).1)

/-- A ticket of which only the number is given. -/
def bareTicket : Value := .map [("number", .int 1)]

/-- A ticket is accepted with a status that is not in the list. -/
theorem accepted_outside_list :
    ∃ row k, (ticket.parseRow {} {} bareTicket).Returns {} (some row) k ∧
      ∃ f ∈ ticket.fields, ∃ l, f.fromContext = false ∧ f.list = some l ∧ l.isKeyed = false ∧
        l.has (row.getD f.index .null) f.valueType .null = false := by
  obtain ⟨row, k, hrow, hresult⟩ := returns_of_found (c := ticket.parseRow {} {} bareTicket)
    (j := {}) (by decide +kernel)
  have hnew : (((ticket.parseRow {} {} bareTicket).result? {}).bind id).any fun row =>
      ticket.fields.any fun f => f.list.any fun l => !f.fromContext && !l.isKeyed &&
        !l.has (row.getD f.index .null) f.valueType .null := by
    decide +kernel
  rw [hresult, Option.any_some] at hnew
  obtain ⟨f, hf, hnew⟩ := List.any_eq_true.mp hnew
  cases hl : f.list with
  | none =>
    rw [hl] at hnew
    cases hnew
  | some l =>
    rw [hl, Option.any_some] at hnew
    simp only [Bool.and_eq_true, Bool.not_eq_true'] at hnew
    exact ⟨row, k, hrow, f, hf, l, hnew.1.1, hl, hnew.1.2, hnew.2⟩

end RecordSchema

end Tablewright
