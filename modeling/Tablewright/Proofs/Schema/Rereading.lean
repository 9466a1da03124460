import Tablewright.Proofs.Schema.Obeying

/-! Accepted rows that are read again. A row that was accepted can be given back under the names of
its fields. What was read for a field is then read as itself, and what comes from the request's
context comes from there again. A default is read for the first time, though, and may turn out not
to be in the field's list: then the row is not accepted any more, and otherwise it comes out as it
was. -/

namespace Tablewright.RecordSchema

open Check

variable {s : RecordSchema} {ctx : RequestContext} {mode : InputMode} {payload : Value} {f : Field}
  {fs : List Field} {row : Row} {j k : Journal}

/-- The row that a payload describes, as entries under the names of its fields. -/
def entriesOf (s : RecordSchema) (ctx : RequestContext) (mode : InputMode) (payload : Value) :
    List (String × Value) :=
  s.fields.map fun f => (f.name, (entryOf ctx mode payload f).value f.default)

/-- A default that was left in the row is not read, or is in the field's list. -/
def DefaultListed (mode : InputMode) (payload : Value) (f : Field) : Prop :=
  readsPayload mode f = true → isMissing (rawOf payload f) = true →
    isMissing f.default = true ∨ f.InPlainList f.default

/-! ## Rows as payloads -/

theorem get?_fields {w : Field → Value} (hnames : (fs.map (·.name)).Nodup) (hf : f ∈ fs) :
    Entries.get? f.name (fs.map fun g => (g.name, w g)) = some (w f) := by
  induction fs with
  | nil => cases hf
  | cons g fs ih =>
    obtain ⟨hg, hfs⟩ := List.nodup_cons.mp hnames
    rw [List.map_cons, Entries.get?_cons]
    rcases List.mem_cons.mp hf with rfl | hf
    · exact if_pos rfl
    · rw [if_neg fun hname => hg (List.mem_map.mpr ⟨f, hf, hname.symm⟩)]
      exact ih hfs hf

/-- A row whose places are known is written under the names of the fields. -/
theorem mapM_at? {w : Field → Value} (h : ∀ f ∈ fs, row[f.index]? = some (w f)) :
    (fs.mapM fun f => (at? row f).map (f.name, ·)) = .ok (fs.map fun f => (f.name, w f)) := by
  induction fs with
  | nil => rfl
  | cons f fs ih =>
    obtain ⟨hf, hfs⟩ := List.forall_mem_cons.mp h
    rw [List.mapM_cons, ih hfs, at?, hf]
    rfl

theorem Sound.toEntries_rowOf (hs : s.Sound) :
    s.toEntries (s.rowOf ctx mode payload) = .ok (s.entriesOf ctx mode payload) :=
  mapM_at? fun _ hf => hs.rowOf_at hf

/-- Under a field's name stands its value in the row. -/
theorem Sound.found_again (hs : s.Sound) (hf : f ∈ s.fields) :
    payloadValue (.map (s.entriesOf ctx mode payload)) f.name =
      .ok ((entryOf ctx mode payload f).value f.default) := by
  rw [payloadValue, entriesOf, get?_fields hs.names hf]
  rfl

theorem Sound.rawOf_again (hs : s.Sound) (hf : f ∈ s.fields) :
    rawOf (.map (s.entriesOf ctx mode payload)) f =
      (entryOf ctx mode payload f).value f.default := by
  rw [rawOf, hs.found_again hf]
  rfl

/-! ## Places -/

theorem placed_of_missing {raw : Value} (hraw : isMissing raw = true) :
    placed false f raw = .keep := if_pos hraw

theorem placed_of_parse {needed : Bool} {raw v : Value} (hraw : isMissing raw = false)
    (hv : f.parse raw = .ok (some v)) : placed needed f raw = .put v := by
  rw [placed, hraw, Field.taken?, hv]
  rfl

/-- A default that is not missing is taken for its field exactly if it is in the field's list. -/
theorem Valid.parse_default_iff (hs : s.Valid) (hf : f ∈ s.fields)
    (hdefault : isMissing f.default = false) {v : Value} :
    f.parse f.default = .ok (some v) ↔ v = f.default ∧ f.InPlainList f.default := by
  rcases hs.default_cases hf with hnull | ⟨⟨text, hread⟩, hkept⟩
  · rw [hnull] at hdefault
    cases hdefault
  · rw [Field.parse_iff]
    constructor
    · rintro ⟨hreads, -, hin⟩
      obtain rfl := hreads.det hread.self
      exact ⟨rfl, hin⟩
    · rintro ⟨rfl, hin⟩
      exact ⟨hread.self, hkept, hin⟩

/-- The value that stands in an accepted place is missing, and may be, or it is taken as itself. -/
theorem Valid.value_again (hs : s.Valid) (hf : f ∈ s.fields) (hread : readsPayload mode f = true)
    (hplaced : entryOf ctx mode payload f ≠ .rejected) (hdefault : DefaultListed mode payload f)
    {v : Value} (hv : (entryOf ctx mode payload f).value f.default = v) :
    isMissing v = true ∧ v = f.default ∧ needsInput mode f = false ∨
      isMissing v = false ∧ f.parse v = .ok (some v) := by
  rw [entryOf, if_pos hread] at hplaced hv
  rcases placed_cases (needsInput mode f) f (rawOf payload f) with
    hrejected | ⟨hmissing, hneeds, hkept⟩ | ⟨w, hgiven, htaken, hput⟩
  · exact absurd hrejected hplaced
  · rw [hkept] at hv
    obtain rfl : f.default = v := hv
    -- The default is given for the first time: it is skipped like any missing value, or read.
    by_cases hnone : isMissing f.default = true
    · exact .inl ⟨hnone, rfl, hneeds⟩
    · have hin := (hdefault hread hmissing).resolve_left hnone
      have hgiven := Bool.eq_false_of_not_eq_true hnone
      exact .inr ⟨hgiven, (hs.parse_default_iff hf hgiven).mpr ⟨rfl, hin⟩⟩
  · rw [hput] at hv
    obtain rfl : w = v := hv
    exact .inr ⟨(Field.parse_iff.mp htaken).1.not_missing hgiven, Field.parse_self htaken⟩

/-- An accepted place, given back, is accepted with the value that it has. -/
theorem Valid.place_again (hs : s.Valid) (hf : f ∈ s.fields)
    (hplaced : entryOf ctx mode payload f ≠ .rejected) (hdefault : DefaultListed mode payload f) :
    (readsPayload mode f = true → Legible (.map (s.entriesOf ctx mode payload)) f) ∧
      entryOf ctx mode (.map (s.entriesOf ctx mode payload)) f ≠ .rejected ∧
      (entryOf ctx mode (.map (s.entriesOf ctx mode payload)) f).value f.default =
        (entryOf ctx mode payload f).value f.default := by
  have hraw : rawOf (.map (s.entriesOf ctx mode payload)) f = _ := hs.sound.rawOf_again hf
  have hfound : payloadValue (.map (s.entriesOf ctx mode payload)) f.name = _ :=
    hs.sound.found_again hf
  generalize hv : (entryOf ctx mode payload f).value f.default = v at hraw hfound ⊢
  by_cases hread : readsPayload mode f = true
  · rw [entryOf, if_pos hread, hraw]
    rcases hs.value_again hf hread hplaced hdefault hv with
      ⟨hmissing, rfl, hneeds⟩ | ⟨hgiven, htaken⟩
    · rw [hneeds, placed_of_missing hmissing]
      refine ⟨fun _ => ⟨hraw ▸ hfound, fun hgiven => ?_⟩, nofun, rfl⟩
      rw [hraw, hmissing] at hgiven
      cases hgiven
    · rw [placed_of_parse hgiven htaken]
      exact ⟨fun _ => ⟨hraw ▸ hfound, fun _ => ⟨_, hraw ▸ htaken⟩⟩, nofun, rfl⟩
  · rw [entryOf, if_neg hread] at hplaced hv ⊢
    exact ⟨fun h => absurd h hread, hplaced, hv⟩

/-! ## Rows -/

/-- An accepted row, given back, describes itself and is accepted, if the defaults in it are in
their lists. -/
theorem Valid.accepts_again (hs : s.Valid) (h : s.Accepts ctx mode payload)
    (hdefaults : ∀ f ∈ s.fields, DefaultListed mode payload f) :
    s.rowOf ctx mode (.map (s.entriesOf ctx mode payload)) = s.rowOf ctx mode payload ∧
      s.Accepts ctx mode (.map (s.entriesOf ctx mode payload)) := by
  have hplace (f : Field) (hf : f ∈ s.fields) :=
    hs.place_again hf (h.placed f hf) (hdefaults f hf)
  have hrow : s.rowOf ctx mode (.map (s.entriesOf ctx mode payload)) = s.rowOf ctx mode payload :=
    List.map_congr_left fun f hf => (hplace f hf).2.2
  refine ⟨hrow, ⟨fun f hf => (hplace f hf).1, ?_⟩, fun f hf => (hplace f hf).2.1, ?_⟩
  · rw [hrow]
    exact h.legible.lists
  · rw [hrow]
    exact h.fits

/-- A default that was left in an accepted row is in its list, if the row is accepted once more. -/
theorem Valid.default_listed (hs : s.Valid) (h : s.Accepts ctx mode payload)
    (hagain : s.Accepts ctx mode (.map (s.entriesOf ctx mode payload))) (hf : f ∈ s.fields) :
    DefaultListed mode payload f := by
  intro hread hmissing
  have hkept : (entryOf ctx mode payload f).value f.default = f.default := by
    have hplaced := h.placed f hf
    rw [entryOf, if_pos hread] at hplaced ⊢
    rcases placed_cases (needsInput mode f) f (rawOf payload f) with
      hrejected | ⟨-, -, hkept⟩ | ⟨v, hgiven, -, -⟩
    · exact absurd hrejected hplaced
    · rw [hkept]
      rfl
    · cases hgiven.symm.trans hmissing
  have hplaced := hagain.placed f hf
  rw [entryOf, if_pos hread, hs.sound.rawOf_again hf, hkept] at hplaced
  rcases placed_cases (needsInput mode f) f f.default with
    hrejected | ⟨hnone, -, -⟩ | ⟨v, hgiven, htaken, -⟩
  · exact absurd hrejected hplaced
  · exact .inl hnone
  · exact .inr ((hs.parse_default_iff hf hgiven).mp htaken).2

/-- An accepted row that is given back with the same context and mode comes out as it is, and nothing
is reported about it, exactly if every default that was left in it for want of input is missing
itself or is in the list of its field. -/
theorem parseRow_again (hs : s.Valid) (h : (s.parseRow ctx mode payload).Returns j (some row) k) :
    ∃ es, s.toEntries row = .ok es ∧
      ((s.parseRow ctx mode (.map es)).Ends (.ok (some row)) [] ↔
        ∀ f ∈ s.fields, DefaultListed mode payload f) := by
  obtain ⟨rfl, haccepts⟩ := hs.sound.accepts h
  refine ⟨_, hs.sound.toEntries_rowOf, fun hends f hf => ?_, fun hdefaults => ?_⟩
  · -- A default that is outside its list would be refused as soon as it is given.
    obtain ⟨l, hreturns, -⟩ := hends.returns {}
    obtain ⟨-, hagain⟩ := hs.sound.accepts hreturns
    exact hs.default_listed haccepts hagain hf
  · obtain ⟨hrow, hagain⟩ := hs.accepts_again haccepts hdefaults
    have hends := hagain.ends hs.sound
    rwa [hrow] at hends

/-! ## Tickets that are given back -/

theorem parseRow_again_ticket : ∃ row k es,
    (ticket.parseRow {} {} closedTicket).Returns {} (some row) k ∧ ticket.toEntries row = .ok es ∧
      (ticket.parseRow {} {} (.map es)).Ends (.ok (some row)) [] := by
  obtain ⟨row, k, hrow, -⟩ := returns_of_found (c := ticket.parseRow {} {} closedTicket) (j := {})
    (by decide +kernel)
  obtain ⟨es, hes, hagain⟩ := parseRow_again ticket_valid hrow
  have hgiven : ∀ f ∈ ticket.fields, isMissing (rawOf closedTicket f) = false := by decide +kernel
  refine ⟨row, k, es, hrow, hes, hagain.mpr fun f hf _ hmissing => ?_⟩
  cases (hgiven f hf).symm.trans hmissing

/-- A new ticket is accepted as it is created, and refused as it is given back. -/
theorem ticket_refused_again : ∃ row k es k',
    (ticket.parseRow {} {} bareTicket).Returns {} (some row) k ∧ ticket.toEntries row = .ok es ∧
      (ticket.parseRow {} {} (.map es)).Returns {} none k' := by
  obtain ⟨row, k, hrow, hresult⟩ := returns_of_found (c := ticket.parseRow {} {} bareTicket)
    (j := {}) (by decide +kernel)
  have hrefused : (((ticket.parseRow {} {} bareTicket).result? {}).bind id).any fun row =>
      (ticket.toEntries row).toOption.any fun es =>
        ((ticket.parseRow {} {} (.map es)).result? {}).any Option.isNone := by
    decide +kernel
  rw [hresult, Option.any_some] at hrefused
  cases hes : ticket.toEntries row with
  | error e =>
    rw [hes] at hrefused
    cases hrefused
  | ok es =>
    rw [hes] at hrefused
    obtain ⟨k', hnone⟩ := returns_of_missed (c := ticket.parseRow {} {} (.map es)) hrefused
    exact ⟨row, k, es, k', hrow, hes, hnone⟩

end Tablewright.RecordSchema
