import Tablewright.Proofs.Schema.Keys
import Tablewright.Proofs.Schema.Problems

/-! What a payload has no say in. The tenant and the users of a row are those of the request, and a
key that the database generates is not given for an insert. Payloads that agree on every other field
are read alike, with the same messages and the same log; and in every row that comes out, the places
of the protected fields hold what the request's context puts there. -/

namespace Tablewright.RecordSchema

open Check

variable {s : RecordSchema} {ctx : RequestContext} {mode : InputMode} {p q : Value} {f : Field}
  {fs : List Field} {r r' : Reading} {row : Row} {j k : Journal}

/-- The field's value is not the payload's to give: a tenant, a user, or for an insert the key that
the database generates. -/
def IsProtected (forInsert : Bool) (f : Field) : Prop :=
  f.role = some .tenantKey ∨ f.role = some .createdBy ∨ f.role = some .modifiedBy ∨
    forInsert = true ∧ f.role = some .generatedPrimaryKey

instance (forInsert : Bool) (f : Field) : Decidable (IsProtected forInsert f) :=
  inferInstanceAs (Decidable (_ ∨ _ ∨ _ ∨ _ ∧ _))

/-- Payloads that differ at most in what is protected. -/
def Agree (s : RecordSchema) (forInsert : Bool) (p q : Value) : Prop :=
  ∀ f ∈ s.fields, ¬ IsProtected forInsert f → payloadValue p f.name = payloadValue q f.name

theorem Agree.refl (s : RecordSchema) (forInsert : Bool) (p : Value) : s.Agree forInsert p p :=
  fun _ _ _ => rfl

/-- It is enough to look at the names that fields without protection have. -/
theorem agree_of_names {forInsert : Bool} (names : List String)
    (hnames : ∀ f ∈ s.fields, IsProtected forInsert f ∨ f.name ∈ names)
    (h : ∀ name ∈ names, payloadValue p name = payloadValue q name) : s.Agree forInsert p q :=
  fun f hf hfree => h f.name ((hnames f hf).resolve_left hfree)

theorem readsPayload_of_protected (h : IsProtected mode.forInsert f) :
    readsPayload mode f = false := by
  unfold readsPayload
  rcases h with hr | hr | hr | ⟨hi, hr⟩
  all_goals simp [*]

/-! ## Two payloads -/

theorem readField_congr (hf : ¬ IsProtected mode.forInsert f →
    payloadValue p f.name = payloadValue q f.name) :
    readField ctx mode p f = readField ctx mode q f := by
  rw [readField_eq, readField_eq]
  by_cases hread : readsPayload mode f = true
  · have hfree : ¬ IsProtected mode.forInsert f := fun hp => by
      rw [readsPayload_of_protected hp] at hread
      cases hread
    rw [if_pos hread, if_pos hread, readPayload, hf hfree, readPayload]
  · rw [if_neg hread, if_neg hread]

theorem readFields_congr (h : ∀ f ∈ fs, ¬ IsProtected mode.forInsert f →
    payloadValue p f.name = payloadValue q f.name) :
    fs.foldlM (readInto ctx mode p) r = fs.foldlM (readInto ctx mode q) r := by
  induction fs generalizing r with
  | nil => rfl
  | cons f fs ih =>
    obtain ⟨hf, hfs⟩ := List.forall_mem_cons.mp h
    have hstep : readInto ctx mode p r f = readInto ctx mode q r f := by
      rw [readInto, readField_congr hf, readInto]
    rw [List.foldlM_cons, List.foldlM_cons, hstep]
    exact congrArg _ (funext fun _ => ih hfs)

/-- Payloads that agree on what is not protected are read alike. Keyed lists see nothing but the row
that was read. -/
theorem parseRow_congr (mode : InputMode) (h : s.Agree mode.forInsert p q) :
    s.parseRow ctx mode p = s.parseRow ctx mode q := by
  rw [parseRow, readFields_congr h, parseRow]

/-! ## The row that comes out -/

theorem returns_readInto (h : (readInto ctx mode p r f).Returns j r' k) :
    ∃ e, r' = r.enter f e ∧ (readsPayload mode f = false → e = contextEntry ctx mode f) := by
  simp only [readInto, returns_bind, returns_pure] at h
  obtain ⟨e, l, he, rfl, -⟩ := h
  refine ⟨e, rfl, fun hread => ?_⟩
  rw [readField_eq, hread, if_neg Bool.false_ne_true, returns_pure] at he
  exact he.1.symm

theorem getElem?_enter_of_ne {e : Entry} {i : Nat} (hi : i ≠ f.index) :
    (r.enter f e).row[i]? = r.row[i]? := by
  cases e with
  | put v => exact List.getElem?_set_ne (Ne.symm hi)
  | keep | rejected => rfl

/-- A field that is not read from the payload leaves in its place what the context puts there, and
fields with other places leave it alone. -/
theorem returns_readFields (h : (fs.foldlM (readInto ctx mode p) r).Returns j r' k)
    (hplaces : (fs.map (·.index)).Nodup) :
    (∀ i ∉ fs.map (·.index), r'.row[i]? = r.row[i]?) ∧
      ∀ f ∈ fs, readsPayload mode f = false →
        r'.row[f.index]? = (r.enter f (contextEntry ctx mode f)).row[f.index]? := by
  induction fs generalizing r j with
  | nil =>
    obtain ⟨rfl, -⟩ := returns_pure.mp h
    exact ⟨fun _ _ => rfl, List.forall_mem_nil _⟩
  | cons g fs ih =>
    rw [List.foldlM_cons, returns_bind] at h
    obtain ⟨first, l, hfirst, h⟩ := h
    obtain ⟨hg, hfs⟩ := List.nodup_cons.mp hplaces
    obtain ⟨e, rfl, he⟩ := returns_readInto hfirst
    obtain ⟨hothers, hcontext⟩ := ih h hfs
    refine ⟨fun i hi => ?_, List.forall_mem_cons.mpr ⟨fun hread => ?_, ?_⟩⟩
    · obtain ⟨hig, hi⟩ := not_or.mp fun hor => hi (List.mem_cons.mpr hor)
      rw [hothers i hi, getElem?_enter_of_ne hig]
    · rw [hothers _ hg, he hread]
    · intro f hf hread
      have hne : f.index ≠ g.index := fun hi => hg (List.mem_map.mpr ⟨f, hf, hi⟩)
      rw [hcontext f hf hread]
      cases hentry : contextEntry ctx mode f with
      | put v =>
        show ((r.enter g e).row.set f.index v)[f.index]? = (r.row.set f.index v)[f.index]?
        rw [List.getElem?_set_self', List.getElem?_set_self', getElem?_enter_of_ne hne]
      | keep | rejected => exact getElem?_enter_of_ne hne

theorem returns_parseRow (h : (s.parseRow ctx mode p).Returns j (some row) k) :
    ∃ reading l, (s.fields.foldlM (readInto ctx mode p) { row := s.newRow }).Returns j reading l ∧
      row = reading.row := by
  simp only [parseRow, returns_bind, returns_pure] at h
  obtain ⟨reading, l, hreading, ok, _, -, hrow, -⟩ := h
  refine ⟨reading, l, hreading, ?_⟩
  cases ok with
  | true => exact (Option.some.inj hrow).symm
  | false => cases hrow

/-- What stands in the places that a payload has no say in: the tenant and the user of the request,
and for an insert the default of a key that the database generates. -/
structure FromContext (s : RecordSchema) (ctx : RequestContext) (mode : InputMode) (row : Row) :
    Prop where
  tenant : ∀ f ∈ s.fields, f.index ∉ mode.skip → f.role = some .tenantKey →
    row[f.index]? = some ctx.tenant
  user : ∀ f ∈ s.fields, f.index ∉ mode.skip →
    f.role = some .createdBy ∨ f.role = some .modifiedBy → row[f.index]? = some ctx.user
  generated : ∀ f ∈ s.fields, mode.forInsert = true → f.role = some .generatedPrimaryKey →
    row[f.index]? = some f.default

theorem Valid.fromContext (hs : s.Valid) (h : (s.parseRow ctx mode p).Returns j (some row) k) :
    s.FromContext ctx mode row := by
  obtain ⟨reading, l, hreading, rfl⟩ := returns_parseRow h
  have hplaces : (s.fields.map (·.index)).Nodup := by
    rw [hs.sound.indexes]
    exact List.nodup_range
  obtain ⟨-, hcontext⟩ := returns_readFields hreading hplaces
  have hdefault {f : Field} (hf : f ∈ s.fields) : s.newRow[f.index]? = some f.default := by
    rw [newRow, List.getElem?_map, hs.sound.at_index hf]
    rfl
  have hput {f : Field} {v : Value} (hf : f ∈ s.fields) (hp : IsProtected mode.forInsert f)
      (hv : contextEntry ctx mode f = .put v) : reading.row[f.index]? = some v := by
    rw [hcontext f hf (readsPayload_of_protected hp), hv]
    show (s.newRow.set f.index v)[f.index]? = some v
    rw [List.getElem?_set_self', hdefault hf]
    rfl
  refine ⟨fun f hf hskip hr => ?_, fun f hf hskip hr => ?_, fun f hf hi hr => ?_⟩
  · exact hput hf (.inl hr) (by simp [contextEntry, hskip, hr])
  · refine hput hf (.inr (hr.imp_right .inl)) ?_
    rcases hr with hr | hr <;> simp [contextEntry, hskip, hr]
  · have hkeep : contextEntry ctx mode f = .keep := by simp [contextEntry, hr]
    rw [hcontext f hf (readsPayload_of_protected (.inr (.inr (.inr ⟨hi, hr⟩)))), hkeep]
    exact hdefault hf

end Tablewright.RecordSchema
