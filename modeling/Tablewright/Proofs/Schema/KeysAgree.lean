import Tablewright.Mapping.ByKey
import Tablewright.Proofs.Filter.Disclosure
import Tablewright.Proofs.Schema.Obeying

/-! Keys that are read alone and keys that are read with their row. The two are read by loops of
their own, over other fields and with other tests. Where a payload gives every key, they agree: on
what a row is identified by, and on what is refused. What they do not share are the other fields of
the row, which may keep it from being read to its end. -/

namespace Tablewright

open Check

/-- The mode in which rows are read to be updated: with their keys, and with no place left to the
caller. -/
structure InputMode.ForUpdate (mode : InputMode) : Prop where
  keyed : mode.forInsert = false
  whole : mode.skip = []

/-- A message about a payload, as it is told of one object and row of a request. -/
def InputMode.locate (mode : InputMode) (m : Message) : Message :=
  { m with object := mode.object, row := mode.rowNumber }

namespace RecordSchema

variable {s : RecordSchema} {ctx : RequestContext} {mode : InputMode} {payload : Value} {f : Field}
  {fs : List Field} {row : Row} {j k : Journal}

/-- A payload gives every key: under its name stands more than blank text. -/
def GivesKeys (s : RecordSchema) (payload : Value) : Prop :=
  ∀ f ∈ s.keyFields, isMissing (rawOf payload f) = false

/-! ## Rows of values that are put in their places -/

/-- Values that are all put in places of their own stand there, and nothing else has changed. -/
theorem row_foldl_put {e : Field → Entry} {v : Field → Value} {r : Reading}
    (hput : ∀ f ∈ fs, e f = .put (v f)) (hfits : ∀ f ∈ fs, f.index < r.row.length)
    (hown : ∀ f ∈ fs, ∀ g ∈ fs, f.index = g.index → f = g) :
    (fs.foldl (fun (r : Reading) f => r.enter f (e f)) r).row.length = r.row.length ∧
      (∀ f ∈ fs, (fs.foldl (fun (r : Reading) f => r.enter f (e f)) r).row[f.index]? = some (v f)) ∧
      ∀ i, i ∉ Mapping.places fs →
        (fs.foldl (fun (r : Reading) f => r.enter f (e f)) r).row[i]? = r.row[i]? := by
  induction fs generalizing r with
  | nil => exact ⟨rfl, List.forall_mem_nil _, fun _ _ => rfl⟩
  | cons f fs ih =>
    obtain ⟨hf, hfs⟩ := List.forall_mem_cons.mp hput
    have henter : r.enter f (e f) = { r with row := r.row.set f.index (v f) } := by rw [hf]; rfl
    have hlen : (r.row.set f.index (v f)).length = r.row.length := List.length_set
    obtain ⟨hlength, hvalues, hrest⟩ := ih (r := r.enter f (e f)) hfs
      (fun g hg => by rw [henter, hlen]; exact hfits g (List.mem_cons_of_mem f hg))
      fun g hg o ho => hown g (List.mem_cons_of_mem f hg) o (List.mem_cons_of_mem f ho)
    rw [henter] at hlength hvalues hrest
    rw [List.foldl_cons, henter]
    refine ⟨hlength.trans hlen, fun g hg => ?_, fun i hi => ?_⟩
    · by_cases hm : g ∈ fs
      · exact hvalues g hm
      · obtain rfl := (List.mem_cons.mp hg).resolve_right hm
        have hplace : g.index ∉ Mapping.places fs := by
          intro hindex
          obtain ⟨o, ho, hsame⟩ := List.mem_map.mp hindex
          exact hm (hown o (List.mem_cons_of_mem g ho) g hg hsame ▸ ho)
        rw [hrest g.index hplace, List.getElem?_set_self (hfits g List.mem_cons_self)]
    · simp only [Mapping.places, List.map_cons, List.mem_cons, not_or] at hi
      rw [hrest i hi.2, List.getElem?_set_ne (Ne.symm hi.1)]

/-! ## One key -/

/-- A key that was read alone was legible. -/
theorem legible_of_readKey {e : Entry} (h : (readKey payload f).Returns j e k) :
    Legible payload f := legible_of_lookup h

/-- A key is read from the payload when its row is to be updated. -/
theorem readsPayload_key (hs : s.Sound) (hmode : mode.ForUpdate) (hf : f ∈ s.keyFields) :
    readsPayload mode f = true := by
  have hrole := (hs.key_mem hf).2
  rw [readsPayload, hmode.whole, hmode.keyed]
  cases hr : f.role with
  | none =>
    rw [hr] at hrole
    cases hrole
  | some role =>
    rw [hr] at hrole
    cases role <;> first | rfl | cases hrole

/-- What becomes of a key that is given does not depend on whether it is read alone. -/
theorem entryOf_key (ctx : RequestContext) (hs : s.Sound) (hmode : mode.ForUpdate)
    (hf : f ∈ s.keyFields) (hgiven : isMissing (rawOf payload f) = false) :
    entryOf ctx mode payload f = placed true f (rawOf payload f) := by
  rw [entryOf, if_pos (readsPayload_key hs hmode hf), placed, placed, hgiven]
  rfl

/-- The tenant's place holds the tenant of the request. -/
theorem entryOf_tenant (hs : s.Sound) (hmode : mode.ForUpdate) (hf : s.tenantField = some f) :
    entryOf ctx mode payload f = .put ctx.tenant := by
  have hrole := (hs.tenant_mem hf).2
  have hread : readsPayload mode f = false := by rw [readsPayload, hrole, Bool.and_false]
  rw [entryOf, hread, contextEntry, hmode.whole, hrole]
  rfl

/-! ## All keys -/

/-- What is reported about the keys of a payload that are read alone. -/
def keyRefusals (s : RecordSchema) (payload : Value) : List Message :=
  s.keyFields.flatMap fun f =>
    (placed true f (rawOf payload f)).problems (refusal {} f (rawOf payload f))

/-- The row of a payload's keys. -/
def keyRow (s : RecordSchema) (ctx : RequestContext) (payload : Value) : Row :=
  (s.keyFields.foldl (fun (r : Reading) f => r.enter f (placed true f (rawOf payload f)))
    { row := s.keyStart ctx }).row

theorem ends_parseKeys (ctx : RequestContext) (hkeys : s.keyFields ≠ [])
    (h : ∀ f ∈ s.keyFields, Legible payload f) :
    (s.parseKeys ctx payload).Ends
      (.ok (if (s.keyRefusals payload).isEmpty then some (s.keyRow ctx payload) else none))
      (s.keyRefusals payload) := by
  refine (endsUnless_keyFields (List.isEmpty_eq_false_iff.mpr hkeys) fun f hf => ?_).ends id
  refine endsUnless_readKey (h f hf).found fun hmissing => ?_
  exact endsUnless_parse ((h f hf).parsed (Bool.eq_false_of_not_eq_true hmissing))

theorem legible_of_parseKeys {r : Option Row} (hkeys : s.keyFields ≠ [])
    (h : (s.parseKeys ctx payload).Returns j r k) : ∀ f ∈ s.keyFields, Legible payload f := by
  intro f hf
  rw [parseKeys, if_neg (by simpa using hkeys), returns_bind] at h
  obtain ⟨reading, _, hreading, -⟩ := h
  obtain ⟨_, _, _, _, hround⟩ := returns_round hreading f hf
  rw [readKeyInto, returns_bind] at hround
  obtain ⟨e, _, hentry, -⟩ := hround
  exact legible_of_readKey hentry

theorem length_keyStart : (s.keyStart ctx).length = s.fields.length := by
  unfold keyStart
  split
  · rw [List.length_set, newRow, List.length_map]
  · rw [newRow, List.length_map]

/-- Where no key is refused, keys that are read alone stand where the row has them, and so does the
tenant. -/
theorem keyRow_agrees (ctx : RequestContext) (hs : s.Sound) (hmode : mode.ForUpdate)
    (hgiven : s.GivesKeys payload) (hnone : s.keyRefusals payload = []) :
    (s.keyRow ctx payload).length = s.fields.length ∧
      ∀ f ∈ s.identifyingFields, (s.keyRow ctx payload)[f.index]? =
        (s.rowOf ctx mode payload)[f.index]? := by
  have hput : ∀ f ∈ s.keyFields, placed true f (rawOf payload f) =
      .put ((placed true f (rawOf payload f)).value f.default) := by
    intro f hf
    have hquiet := List.flatMap_eq_nil_iff.mp hnone f hf
    rcases placed_cases true f (rawOf payload f) with hrejected | ⟨-, hneeds, -⟩ | ⟨v, -, -, hput⟩
    · rw [hrejected] at hquiet
      cases hquiet
    · cases hneeds
    · rw [hput]
      rfl
  obtain ⟨hlength, hvalues, hrest⟩ := row_foldl_put (r := { row := s.keyStart ctx }) hput
    (fun f hf => length_keyStart (s := s) ▸ hs.index_lt (hs.key_mem hf).1)
    fun f hf g hg => hs.eq_of_index (hs.key_mem hf).1 (hs.key_mem hg).1
  refine ⟨hlength.trans length_keyStart, fun f hf => ?_⟩
  rcases List.mem_append.mp hf with hkey | htenant
  · rw [hs.rowOf_at (hs.key_mem hkey).1, entryOf_key ctx hs hmode hkey (hgiven f hkey)]
    exact hvalues f hkey
  · have ht : s.tenantField = some f := Option.mem_toList.mp htenant
    obtain ⟨hmem, hrole⟩ := hs.tenant_mem ht
    have hplace : f.index ∉ Mapping.places s.keyFields := by
      intro hindex
      obtain ⟨g, hg, hsame⟩ := List.mem_map.mp hindex
      obtain ⟨hgmem, hgrole⟩ := hs.key_mem hg
      rw [hs.eq_of_index hgmem hmem hsame, hrole] at hgrole
      cases hgrole
    rw [hs.rowOf_at hmem, entryOf_tenant hs hmode ht]
    refine (hrest f.index hplace).trans ?_
    unfold keyStart
    rw [ht]
    exact List.getElem?_set_self (by simpa [newRow] using hs.index_lt hmem)

end RecordSchema

/-! ## What is asked for by a row -/

namespace Mapping

open Work

variable {m : Mapping} {row row' : Row}

/-- Two rows find the same: they bind the same values to the conditions of a row, and a handle is
asked for the same by a read or a delete with either. -/
structure FindsAlike (m : Mapping) (row row' : Row) : Prop where
  bound : ∃ values, m.bindRow m.whereFields row = .ok values ∧
    m.bindRow m.whereFields row' = .ok values
  asked : ∀ {σ : Type} (h : Handle σ) (w w' : Workspace) (r r' : RowRef) (s : σ),
    w.row r = row → w'.row r' = row' →
    ((m.read r).start w).asked h s = ((m.read r').start w').asked h s ∧
      ((m.delete r).start w).asked h s = ((m.delete r').start w').asked h s

/-- Work that binds the values of a row and asks once asks for the same wherever the values are the
same. -/
theorem asked_bound {α σ : Type} {c : List Value → Call}
    {f g : (values : List Value) → (c values).Reply → Work α} {w w' : Workspace} {r r' : RowRef}
    {fields : List Field}
    (hbound : m.bindRow fields (w.row r) = m.bindRow fields (w'.row r'))
    (hf : ∀ values a, Asks (fun _ => False) (f values a))
    (hg : ∀ values a, Asks (fun _ => False) (g values a)) (h : Handle σ) (s : σ) :
    Task.asked h ((do
        let values ← lift (m.bindRow fields (← Work.row r))
        f values (← ask (c values)) : Work α).start w) s =
      Task.asked h ((do
        let values ← lift (m.bindRow fields (← Work.row r'))
        g values (← ask (c values)) : Work α).start w') s := by
  show Task.asked h ((lift (m.bindRow fields (w.row r)) >>= fun values =>
      ask (c values) >>= f values : Work α).start w) s =
    Task.asked h ((lift (m.bindRow fields (w'.row r')) >>= fun values =>
      ask (c values) >>= g values : Work α).start w') s
  rw [hbound]
  cases m.bindRow fields (w'.row r') with
  | error e => rfl
  | ok values => exact (asked_ask (hf values) h w s).trans (asked_ask (hg values) h w' s).symm

theorem asked_read_alike {σ : Type} {w w' : Workspace} {r r' : RowRef}
    (hbound : m.bindRow m.whereFields (w.row r) = m.bindRow m.whereFields (w'.row r'))
    (h : Handle σ) (s : σ) :
    ((m.read r).start w).asked h s = ((m.read r').start w').asked h s := by
  unfold read
  split
  · rfl
  · refine asked_bound (c := fun values => .read m.readStatement.toText values
      (types m.whereFields) (types m.selectFields)) hbound ?_ ?_ h s
    all_goals
      intro values found
      cases found with
      | none => exact asks_pure
      | some result => exact asks_copyInto.bind fun _ => asks_pure

theorem asked_delete_alike {σ : Type} {w w' : Workspace} {r r' : RowRef}
    (hbound : m.bindRow m.whereFields (w.row r) = m.bindRow m.whereFields (w'.row r'))
    (h : Handle σ) (s : σ) :
    ((m.delete r).start w).asked h s = ((m.delete r').start w').asked h s := by
  unfold delete
  split
  · rfl
  · exact asked_bound hbound (fun _ _ => asks_pure) (fun _ _ => asks_pure) h s

theorem findsAlike_of_places (hlen : row.length = m.schema.fields.length)
    (hlen' : row'.length = m.schema.fields.length)
    (hplaces : ∀ f ∈ m.schema.identifyingFields, row[f.index]? = row'[f.index]?) :
    m.FindsAlike row row' := by
  have hvalues : m.boundValues m.whereFields row = m.boundValues m.whereFields row' := by
    refine List.map_congr_left fun f hf => ?_
    have hf : f ∈ m.schema.identifyingFields := by
      unfold whereFields at hf
      split at hf
      · exact hf
      · cases hf
    rw [List.getD_eq_getElem?_getD, hplaces f hf, ← List.getD_eq_getElem?_getD]
  have hrow : m.bindRow m.whereFields row = .ok (m.boundValues m.whereFields row') :=
    (if_pos hlen).trans (congrArg Except.ok hvalues)
  have hrow' : m.bindRow m.whereFields row' = .ok (m.boundValues m.whereFields row') := if_pos hlen'
  refine ⟨⟨_, hrow, hrow'⟩, ?_⟩
  rintro σ h w w' r r' s rfl rfl
  have hbound := hrow.trans hrow'.symm
  exact ⟨asked_read_alike hbound h s, asked_delete_alike hbound h s⟩

end Mapping

namespace RecordSchema

variable {s : RecordSchema} {ctx : RequestContext} {mode : InputMode} {payload : Value}

/-! ## Both readings -/

theorem refusal_locate (mode : InputMode) (f : Field) (raw : Value) :
    refusal mode f raw = mode.locate (refusal {} f raw) := by
  unfold refusal
  split <;> rfl

/-- What is said of a key is said of it with its row as well. -/
theorem refusals_shared (ctx : RequestContext) (hs : s.Valid) (hgiven : s.GivesKeys payload)
    (hmode : mode.ForUpdate) :
    ∀ m ∈ s.keyRefusals payload, mode.locate m ∈ s.problemsOf ctx mode payload := by
  intro m hm
  obtain ⟨f, hf, hm⟩ := List.mem_flatMap.mp hm
  refine List.mem_append_left _ (List.mem_flatMap.mpr ⟨f, (hs.sound.key_mem hf).1, ?_⟩)
  rw [entryProblems, entryOf_key ctx hs.sound hmode hf (hgiven f hf)]
  cases he : placed true f (rawOf payload f) with
  | rejected =>
    rw [he] at hm
    obtain rfl := List.mem_singleton.mp hm
    exact List.mem_singleton.mpr (refusal_locate mode f _).symm
  | keep | put =>
    rw [he] at hm
    cases hm

/-- Where a payload gives every key, reading its keys agrees with reading its row for an update. If
the row is accepted the keys are, without a message, and they find what the row finds. If the keys
are refused, the row is refused too, with all that was said of the keys, as long as nothing else
that the payload has for it keeps it from being read to its end. -/
theorem parseKeys_agrees (ctx : RequestContext) (hs : s.Valid) (hkeys : s.keyFields ≠ [])
    (hgiven : s.GivesKeys payload) (hmode : mode.ForUpdate) :
    (∀ j row k, (s.parseRow ctx mode payload).Returns j (some row) k → ∃ keys,
      (s.parseKeys ctx payload).Ends (.ok (some keys)) [] ∧
      (∀ f ∈ s.identifyingFields, keys[f.index]? = row[f.index]?) ∧
      ∀ m : Mapping, m.schema = s → m.FindsAlike keys row) ∧
    ((∃ j r k, (s.parseRow ctx mode payload).Returns j r k) ↔ s.LegibleRow ctx mode payload) ∧
    ∀ j k, (s.parseKeys ctx payload).Returns j none k → ∃ ms ≠ [],
      k.messages = j.messages ++ ms ∧ (s.LegibleRow ctx mode payload → ∃ ms',
        (s.parseRow ctx mode payload).Ends (.ok none) ms' ∧ ∀ m ∈ ms, mode.locate m ∈ ms') := by
  refine ⟨fun j row k hrow => ?_, ⟨?_, fun hlegible => ?_⟩, fun j k hnone => ?_⟩
  · obtain ⟨rfl, haccepts⟩ := hs.sound.accepts hrow
    have hplaced : ∀ f ∈ s.keyFields, placed true f (rawOf payload f) ≠ .rejected := by
      intro f hf
      rw [← entryOf_key ctx hs.sound hmode hf (hgiven f hf)]
      exact haccepts.placed f (hs.sound.key_mem hf).1
    have hquiet : s.keyRefusals payload = [] := by
      refine List.flatMap_eq_nil_iff.mpr fun f hf => ?_
      cases he : placed true f (rawOf payload f) with
      | rejected => exact absurd he (hplaced f hf)
      | keep | put => rfl
    have hends := ends_parseKeys ctx hkeys fun f hf =>
      haccepts.legible.places f (hs.sound.key_mem hf).1 (readsPayload_key hs.sound hmode hf)
    obtain ⟨hlength, hagree⟩ := keyRow_agrees ctx hs.sound hmode hgiven hquiet
    rw [hquiet] at hends
    refine ⟨s.keyRow ctx payload, hends, hagree, ?_⟩
    rintro m rfl
    exact Mapping.findsAlike_of_places hlength (List.length_map _) hagree
  · rintro ⟨j, r, k, hrow⟩
    exact hs.sound.legibleRow_of_returns hrow
  · obtain ⟨k, hrow, -⟩ := (hlegible.ends hs.sound).returns {}
    exact ⟨{}, _, k, hrow⟩
  · obtain ⟨hrefused, hmessages⟩ :=
      (ends_parseKeys ctx hkeys (legible_of_parseKeys hkeys hnone)).eq_of_returns hnone
    have hsome : s.keyRefusals payload ≠ [] := by
      intro hquiet
      rw [hquiet] at hrefused
      cases hrefused
    refine ⟨_, hsome, hmessages, fun hlegible => ⟨s.problemsOf ctx mode payload, ?_, ?_⟩⟩
    · obtain ⟨m, hm⟩ := List.exists_mem_of_ne_nil _ hsome
      have hshared := refusals_shared ctx hs hgiven hmode m hm
      have hproblems : (s.problemsOf ctx mode payload).isEmpty = false :=
        List.isEmpty_eq_false_iff.mpr (List.ne_nil_of_mem hshared)
      have hends := hlegible.ends hs.sound
      rwa [hproblems] at hends
    · exact refusals_shared ctx hs hgiven hmode

/-! ## An invoice and a crate -/

/-- An invoice as it is given for an update. -/
def givenInvoice : Value :=
  .map [("number", .text "7"), ("customer", .text "Ada"), ("total", .text "12.50")]

/-- The same with a number that is none. -/
def misreadInvoice : Value :=
  .map [("number", .text "seven"), ("customer", .text "Ada"), ("total", .text "12.50")]

theorem parseKeys_agrees_invoice : ∃ row k keys k' ms',
    (invoice.parseRow { tenant := .int 1 } { forInsert := false } givenInvoice).Returns {}
      (some row) k ∧
    (invoice.parseKeys { tenant := .int 1 } givenInvoice).Ends (.ok (some keys)) [] ∧
    (∀ f ∈ invoice.identifyingFields, keys[f.index]? = row[f.index]?) ∧
    (Mapping.mk invoice false "CURRENT_TIMESTAMP").FindsAlike keys row ∧
    (invoice.parseKeys { tenant := .int 1 } misreadInvoice).Returns {} none k' ∧
    (invoice.parseRow { tenant := .int 1 } { forInsert := false } misreadInvoice).Ends (.ok none)
      ms' ∧ ∀ m ∈ k'.messages, InputMode.locate { forInsert := false } m ∈ ms' := by
  have hkeys : invoice.keyFields ≠ [] := List.ne_nil_of_length_pos (by decide +kernel)
  have hgiven : invoice.GivesKeys givenInvoice ∧ invoice.GivesKeys misreadInvoice := by
    unfold GivesKeys
    decide +kernel
  have hmode : InputMode.ForUpdate { forInsert := false } := ⟨rfl, rfl⟩
  obtain ⟨row, k, hrow, -⟩ := returns_of_found (j := {}) (c := invoice.parseRow { tenant := .int 1 }
    { forInsert := false } givenInvoice) (by decide +kernel)
  obtain ⟨haccepted, -⟩ := parseKeys_agrees { tenant := .int 1 } invoice_valid hkeys hgiven.1 hmode
  obtain ⟨keys, hends, hplaces, hfinds⟩ := haccepted {} row k hrow
  obtain ⟨k', hnone⟩ := returns_of_missed (j := {}) (c := invoice.parseKeys { tenant := .int 1 }
    misreadInvoice) (by decide +kernel)
  obtain ⟨i, hrefused⟩ := returns_of_missed (j := {}) (c := invoice.parseRow { tenant := .int 1 }
    { forInsert := false } misreadInvoice) (by decide +kernel)
  obtain ⟨-, hlegible, hrejected⟩ :=
    parseKeys_agrees { tenant := .int 1 } invoice_valid hkeys hgiven.2 hmode
  obtain ⟨ms, -, hmessages, hrow'⟩ := hrejected {} k' hnone
  obtain ⟨ms', hends', hshared⟩ := hrow' (hlegible.mp ⟨{}, none, i, hrefused⟩)
  refine ⟨row, k, keys, k', ms', hrow, hends, hplaces, hfinds _ rfl, hnone, hends', ?_⟩
  rwa [hmessages]

/-- Crates with an amount, and a number behind it. -/
def crateDeclaration : RecordDeclaration where
  name := "crate"
  nameInDb := some "crates"
  useTimestampCheck := false
  operations := []
  fields := [
    invoiceColumn "amount" "amount" .integer .optionalData,
    invoiceColumn "number" "number" .integer .primaryKey]

def crate : RecordSchema := declared crateDeclaration

def misreadCrate : Value := .map [("number", .text "abc"), ("amount", .text "1.5e28")]

/-- A number that is refused as a key is not reported of the row, because the reading of the row
fails at the amount. -/
theorem overflow_hides_key : crate.Valid ∧ crate.keyFields ≠ [] ∧ crate.GivesKeys misreadCrate ∧
    InputMode.ForUpdate { forInsert := false } ∧
    (∃ k, (crate.parseKeys {} misreadCrate).Returns {} none k ∧
      k.messages = [.fieldError "number" "'abc' is not a valid value for number"]) ∧
    (crate.parseRow {} { forInsert := false } misreadCrate).result? {} = none ∧
    ((crate.parseRow {} { forInsert := false } misreadCrate).run.run {}).2.messages = [] := by
  have hmessages : ((crate.parseKeys {} misreadCrate).run.run {}).2.messages =
      [.fieldError "number" "'abc' is not a valid value for number"] := by decide +kernel
  obtain ⟨k, hk⟩ := returns_of_missed (c := crate.parseKeys {} misreadCrate) (j := {})
    (by decide +kernel)
  have hjournal : ((crate.parseKeys {} misreadCrate).run.run {}).2 = k := congrArg Prod.snd hk
  rw [hjournal] at hmessages
  refine ⟨valid_declared (by decide +kernel), List.ne_nil_of_length_pos (by decide +kernel), ?_,
    ⟨rfl, rfl⟩, ⟨k, hk, hmessages⟩, ?_, by decide +kernel⟩
  · unfold GivesKeys
    decide +kernel
  · rw [← Option.isNone_iff_eq_none]
    decide +kernel

end RecordSchema

end Tablewright
