import Mathlib.Data.List.Duplicate
import Tablewright.Proofs.Mapping.Places
import Tablewright.Proofs.Sql.Sentence

/-! What a mapping writes is of the grammar. Whether a schema is valid is judged by the names
and the roles of its fields, and never by their columns, so two fields may share one. A
column then stands in a list as often as it has fields there, and no column stands there
twice for any other reason. -/

namespace Tablewright

open Sql Token Check

open StoreStatement (isWord)

namespace Statement

/-- The columns of a statement's list: those that it selects, inserts or sets. -/
def named : Statement → List String
  | select _ columns _ => columns
  | insert _ entries => entries.map (·.column)
  | update _ sets _ => sets.map (·.column)
  | delete _ _ => []

end Statement

namespace Mapping

/-- Two of the fields are kept in the same column. -/
def Shares (fs : List Field) (column : String) : Prop :=
  ∃ f ∈ fs, ∃ g ∈ fs, f.index ≠ g.index ∧ f.columnName = column ∧ g.columnName = column

/-- Whether a field is a key, the tenant or a mark of creation. -/
def IsKept (f : Field) : Prop :=
  f.role.any FieldRole.isKey = true ∨ f.role = some .tenantKey ∨ f.role = some .createdAt ∨
    f.role = some .createdBy

/-- Every text that a mapping offers is a sentence of the grammar, where there is a column
for each of its lists. -/
structure SpeaksGrammar (m : Mapping) : Prop where
  select : m.selectFields ≠ [] → Sentence m.clock m.selectStatement (tokens m.selectText)
  clause : ∀ text, m.whereText? = some text → IsWhere (columns m.whereFields) (tokens text)
  insert : ∀ text, m.insertText? = some text → m.insertFields ≠ [] →
    Sentence m.clock m.insertStatement (tokens text)
  update : ∀ text, m.updateText? = some text → Sentence m.clock m.updateStatement (tokens text)
  delete : ∀ text, m.deleteText? = some text → Sentence m.clock m.deleteStatement (tokens text)

/-- A list names a column twice, or an update sets a column that it must keep, just where
two fields share it. -/
structure NamesOnce (m : Mapping) : Prop where
  select : ∀ c, List.Duplicate c m.selectStatement.named ↔ Shares m.selectFields c
  insert : ∀ c, List.Duplicate c m.insertStatement.named ↔ Shares m.insertFields c
  update : ∀ c, List.Duplicate c m.updateStatement.named ↔ Shares m.updateFields c
  keeps : ∀ g ∈ m.schema.fields, IsKept g → g.columnName ∈ m.updateStatement.named →
    Shares m.selectFields g.columnName

/-! ## Lists that name columns -/

section Lists

variable {m : Mapping}

theorem named_insert (m : Mapping) : m.insertStatement.named = columns m.insertFields := by
  rw [insertStatement, Statement.named, List.map_map]
  rfl

theorem named_update (m : Mapping) : m.updateStatement.named = columns m.updateFields := by
  rw [updateStatement, Statement.named, List.map_map]
  rfl

theorem indexes_nodup {s : RecordSchema} (hs : s.Sound) : (s.fields.map (·.index)).Nodup :=
  hs.indexes ▸ List.nodup_range

/-- Two different elements of a list stand in it one behind the other. -/
theorem pair_sublist {α : Type} {a b : α} {l : List α} (ha : a ∈ l) (hb : b ∈ l) (hne : a ≠ b) :
    [a, b].Sublist l ∨ [b, a].Sublist l := by
  obtain ⟨front, back, rfl⟩ := List.append_of_mem ha
  rcases List.mem_append.mp hb with hb | hb
  · refine .inr ?_
    exact (List.singleton_sublist.mpr hb).append (List.singleton_sublist.mpr List.mem_cons_self)
  · have hb : b ∈ back := (List.mem_cons.mp hb).resolve_left hne.symm
    refine .inl (List.Sublist.trans ?_ (List.sublist_append_right front _))
    exact (List.singleton_sublist.mpr hb).cons_cons a

/-- The columns of some fields, one for each: a column is named twice just if two of the
fields share it. -/
theorem duplicate_columns {fs : List Field} (h : (fs.map (·.index)).Nodup) (c : String) :
    List.Duplicate c (columns fs) ↔ Shares fs c := by
  rw [List.duplicate_iff_sublist, columns]
  constructor
  · intro hc
    obtain ⟨gs, hgs, heq⟩ := List.sublist_map_iff.mp hc
    obtain ⟨f, gs, rfl, hf, heq⟩ := List.map_eq_cons_iff.mp heq.symm
    obtain ⟨g, gs, rfl, hg, heq⟩ := List.map_eq_cons_iff.mp heq
    obtain rfl := List.map_eq_nil_iff.mp heq
    have hpair : ([f, g].map (·.index)).Nodup := (hgs.map _).nodup h
    have hne : f.index ≠ g.index := by simpa using hpair
    exact ⟨f, hgs.mem (by simp), g, hgs.mem (by simp), hne, hf, hg⟩
  · rintro ⟨f, hf, g, hg, hne, rfl, hcol⟩
    have hfg : f ≠ g := by
      intro heq
      exact hne (congrArg _ heq)
    rcases pair_sublist hf hg hfg with hsub | hsub
    · simpa [hcol] using hsub.map Field.columnName
    · simpa [hcol] using hsub.map Field.columnName

end Lists

/-! ## The texts of a mapping -/

section Texts

variable {m : Mapping}

theorem columns_ne_nil {fs : List Field} (h : fs ≠ []) : columns fs ≠ [] := by
  simpa [columns] using h

theorem words_of_fields (hcolumns : ∀ f ∈ m.schema.columnFields, isWord f.columnName = true)
    {fs : List Field} (hfs : ∀ f ∈ fs, f ∈ m.schema.columnFields) :
    ∀ c ∈ columns fs, isWord c = true := by
  intro c hc
  obtain ⟨f, hf, rfl⟩ := List.mem_map.mp hc
  exact hcolumns f (hfs f hf)

theorem whereFields_ne_nil (hk : m.hasKeys = true) : m.whereFields ≠ [] := by
  have hkeys : m.schema.keyFields ≠ [] := by simpa [hasKeys] using hk
  rw [whereFields, if_pos hk, RecordSchema.identifyingFields]
  simp [hkeys]

theorem whereFields_columns (hs : m.schema.Sound) :
    ∀ f ∈ m.whereFields, f ∈ m.schema.columnFields :=
  fun f hf => updateConditions_columns hs f (List.mem_append_left _ hf)

theorem isGiven_insertTerm (m : Mapping) (f : Field) : IsGiven m.clock (m.insertTerm f) := by
  unfold insertTerm
  split
  · exact .inr rfl
  · exact .inl rfl

theorem isGiven_updateTerm (m : Mapping) (f : Field) : IsGiven m.clock (m.updateTerm f) := by
  unfold updateTerm
  split
  · exact .inr rfl
  · exact .inl rfl

theorem speaksGrammar (hs : m.schema.Sound) (htable : isWord m.table = true)
    (hcolumns : ∀ f ∈ m.schema.columnFields, isWord f.columnName = true) : m.SpeaksGrammar := by
  have hwhere := words_of_fields hcolumns (whereFields_columns hs)
  refine ⟨?_, ?_, ?_, ?_, ?_⟩
  · intro hne
    exact sentence_select htable (columns_ne_nil hne) (words_of_fields hcolumns fun f hf => hf)
  · intro text ht
    obtain ⟨hk, ⟨⟩⟩ := Option.ite_none_right_eq_some.mp ht
    exact isWhere_tokens (columns_ne_nil (whereFields_ne_nil hk)) hwhere
  · intro text ht hne
    obtain ⟨hk, ⟨⟩⟩ := Option.ite_none_right_eq_some.mp ht
    refine sentence_insert htable (by simpa using hne) ?_ ?_
    · intro a ha
      obtain ⟨f, hf, rfl⟩ := List.mem_map.mp ha
      exact hcolumns f (List.mem_filter.mp hf).1
    · intro a ha
      obtain ⟨f, -, rfl⟩ := List.mem_map.mp ha
      exact isGiven_insertTerm m f
  · intro text ht
    obtain ⟨hc, ⟨⟩⟩ := Option.ite_none_right_eq_some.mp ht
    obtain ⟨hk, hsets⟩ := Bool.and_eq_true_iff.mp hc
    have hconditions : m.updateConditions ≠ [] := by simp [updateConditions, whereFields_ne_nil hk]
    refine sentence_update htable (by simpa using hsets) ?_ ?_ (columns_ne_nil hconditions)
      (words_of_fields hcolumns (updateConditions_columns hs))
    · intro a ha
      obtain ⟨f, hf, rfl⟩ := List.mem_map.mp ha
      exact hcolumns f (List.mem_filter.mp hf).1
    · intro a ha
      obtain ⟨f, -, rfl⟩ := List.mem_map.mp ha
      exact isGiven_updateTerm m f
  · intro text ht
    obtain ⟨hk, ⟨⟩⟩ := Option.ite_none_right_eq_some.mp ht
    exact sentence_delete htable (columns_ne_nil (whereFields_ne_nil hk)) hwhere

/-- The role of a field that is kept is none of those that an update writes. -/
theorem IsKept.not_updated {f : Field} (h : IsKept f) : f.role.any FieldRole.isUpdated = false := by
  unfold IsKept at h
  cases hr : f.role with
  | none => rfl
  | some role => cases role <;> simp_all [FieldRole.isKey, FieldRole.isUpdated]

theorem namesOnce (hs : m.schema.Sound) : m.NamesOnce := by
  have hall : (m.schema.columnFields.map (·.index)).Nodup :=
    (List.filter_sublist.map _).nodup (indexes_nodup hs)
  have hsome (p : Field → Bool) : ((m.schema.columnFields.filter p).map (·.index)).Nodup :=
    (List.filter_sublist.map _).nodup hall
  refine ⟨?_, ?_, ?_, ?_⟩
  · exact duplicate_columns hall
  · intro c
    rw [named_insert]
    exact duplicate_columns (hsome _) c
  · intro c
    rw [named_update]
    exact duplicate_columns (hsome _) c
  · intro g hg hkept hset
    rw [named_update] at hset
    obtain ⟨f, hf, hcol⟩ := List.mem_map.mp hset
    obtain ⟨hf, hrole⟩ := List.mem_filter.mp hf
    have hne : f.index ≠ g.index := by
      intro hi
      rw [hs.eq_of_index (List.mem_filter.mp hf).1 hg hi, hkept.not_updated] at hrole
      cases hrole
    have hgcol : g ∈ m.schema.columnFields := by
      refine List.mem_filter.mpr ⟨hg, hs.isColumn_of_role hg ?_⟩
      unfold IsKept at hkept
      cases hr : g.role with
      | none => simp [hr] at hkept
      | some role => rfl
    exact ⟨f, hf, g, hgcol, hne, hcol, rfl⟩

end Texts

/-- If each column is that of one field only, no list names a column twice, and no update
sets a column that it must keep. -/
theorem NamesOnce.of_distinct {m : Mapping} (h : m.NamesOnce)
    (hd : ∀ c, ¬ Shares m.selectFields c) :
    m.selectStatement.named.Nodup ∧ m.insertStatement.named.Nodup ∧
      m.updateStatement.named.Nodup ∧
      ∀ g ∈ m.schema.fields, IsKept g → g.columnName ∉ m.updateStatement.named := by
  have hfewer {p : Field → Bool} (c : String) : ¬ Shares (m.selectFields.filter p) c := by
    rintro ⟨f, hf, g, hg, hrest⟩
    exact hd c ⟨f, (List.mem_filter.mp hf).1, g, (List.mem_filter.mp hg).1, hrest⟩
  refine ⟨?_, ?_, ?_, ?_⟩
  · exact List.nodup_iff_forall_not_duplicate.mpr fun c hc => hd c ((h.select c).mp hc)
  · exact List.nodup_iff_forall_not_duplicate.mpr fun c hc => hfewer c ((h.insert c).mp hc)
  · exact List.nodup_iff_forall_not_duplicate.mpr fun c hc => hfewer c ((h.update c).mp hc)
  · intro g hg hkept hset
    exact hd _ (h.keeps g hg hkept hset)

/-- Whatever a mapping of a valid schema writes is well formed: its texts are sentences where
there are columns for their lists, and name a column twice only if two fields share it. If no two
fields do, every list names each of its columns once. -/
theorem texts_wellFormed {d : RecordDeclaration} {s : RecordSchema} {settings : Settings}
    {nullAsZero : Option Bool} {clock : Option String} {m : Mapping} {j k j' k' : Journal}
    (hs : (RecordSchema.build d).Returns j s k)
    (hm : (build settings nullAsZero clock s).Returns j' m k') (htable : isWord m.table = true)
    (hcolumns : ∀ f ∈ s.columnFields, isWord f.columnName = true) :
    m.SpeaksGrammar ∧ m.NamesOnce ∧ ((∀ c, ¬ Shares m.selectFields c) →
      m.selectStatement.named.Nodup ∧ m.insertStatement.named.Nodup ∧
      m.updateStatement.named.Nodup ∧
      ∀ g ∈ m.schema.fields, IsKept g → g.columnName ∉ m.updateStatement.named) := by
  obtain ⟨rfl, hv, -⟩ := returns_build hm
  have hsound : m.schema.Sound := RecordSchema.Valid.sound ⟨hv, d, j, k, hs⟩
  have honce := namesOnce hsound
  exact ⟨speaksGrammar hsound htable hcolumns, honce, honce.of_distinct⟩

theorem texts_wellFormed_invoice : ∃ s m k k',
    (RecordSchema.build RecordSchema.invoiceDeclaration).Returns {} s k ∧
    (build {} none none s).Returns {} m k' ∧ m.SpeaksGrammar ∧ m.NamesOnce ∧
    m.selectStatement.named.Nodup ∧ m.insertStatement.named.Nodup ∧
    m.updateStatement.named.Nodup ∧
    ∀ g ∈ m.schema.fields, IsKept g → g.columnName ∉ m.updateStatement.named := by
  obtain ⟨k, hs⟩ := RecordSchema.invoice_built
  obtain ⟨m, k', hm, -⟩ := returns_of_result (c := build {} none none RecordSchema.invoice)
    (j := {}) (by decide +kernel)
  obtain ⟨hschema, -, -⟩ := returns_build hm
  have htable : isWord m.table = true := by
    rw [table, hschema]
    decide +kernel
  obtain ⟨hgrammar, honce, hdistinct⟩ := texts_wellFormed hs hm htable (by decide +kernel)
  have hcolumns : ∀ f ∈ RecordSchema.invoice.columnFields, ∀ g ∈ RecordSchema.invoice.columnFields,
      f.index ≠ g.index → f.columnName ≠ g.columnName := by decide +kernel
  have hown (c : String) : ¬ Shares m.selectFields c := by
    intro h
    obtain ⟨f, hf, g, hg, hne, hfc, hgc⟩ := h
    rw [selectFields, hschema] at hf hg
    exact hcolumns f hf g hg hne (hfc.trans hgc.symm)
  exact ⟨_, m, k, k', hs, hm, hgrammar, honce, hdistinct hown⟩

/-! ## Fields that share a column, and lists without one -/

/-- What is built from a declaration without a fault, everything else being left as it is set. -/
def Maps (d : RecordDeclaration) (m : Mapping) : Prop :=
  (RecordSchema.declared d = m.schema ∧ m.schema.Valid) ∧
    ∃ k, (build {} none none m.schema).Returns {} m k

def mapped (d : RecordDeclaration) : Mapping :=
  ⟨RecordSchema.declared d, true, "CURRENT_TIMESTAMP"⟩

/-- Shelves whose least and greatest stock are kept in one column, and whose label is kept in
that of their number. -/
def shelfDeclaration : RecordDeclaration where
  name := "shelf"
  nameInDb := some "shelves"
  useTimestampCheck := false
  operations := []
  fields := [
    RecordSchema.invoiceColumn "number" "number" .integer .primaryKey,
    RecordSchema.invoiceColumn "least" "stock" .integer .requiredData,
    RecordSchema.invoiceColumn "greatest" "stock" .integer .requiredData,
    RecordSchema.invoiceColumn "label" "number" .text .optionalData]

/-- Tickets that have a number and nothing else. -/
def ticketDeclaration : RecordDeclaration where
  name := "ticket"
  nameInDb := some "tickets"
  useTimestampCheck := false
  operations := []
  fields := [RecordSchema.invoiceColumn "number" "number" .integer .generatedPrimaryKey]

def shelf : Mapping := mapped shelfDeclaration

def ticket : Mapping := mapped ticketDeclaration

theorem maps_shelf : Maps shelfDeclaration shelf :=
  ⟨⟨rfl, RecordSchema.valid_declared (by decide +kernel)⟩, ⟨_, rfl⟩⟩

theorem maps_ticket : Maps ticketDeclaration ticket :=
  ⟨⟨rfl, RecordSchema.valid_declared (by decide +kernel)⟩, ⟨_, rfl⟩⟩

/-- Every list of a shelf's statements names a column twice, and its update sets the key. The
insert of a ticket names no column and so is no sentence. -/
theorem malformed_shelf_ticket :
    (Maps shelfDeclaration shelf ∧
      shelf.insertText? =
        some "INSERT INTO shelves (number, stock, stock, number) VALUES (?, ?, ?, ?)" ∧
      shelf.updateText? = some "UPDATE shelves SET stock=?, stock=?, number=? WHERE number=?" ∧
      ¬ shelf.selectStatement.named.Nodup ∧ ¬ shelf.insertStatement.named.Nodup ∧
      ¬ shelf.updateStatement.named.Nodup ∧
      ∃ g ∈ shelf.schema.keyFields, g.columnName ∈ shelf.updateStatement.named) ∧
    (Maps ticketDeclaration ticket ∧
      ticket.insertText? = some "INSERT INTO tickets () VALUES ()" ∧
      ∀ ts, ¬ Sentence ticket.clock ticket.insertStatement ts) := by
  have hempty : ∀ ts, ¬ Sentence ticket.clock ticket.insertStatement ts := by
    intro ts h
    have hnone : ticket.insertStatement = .insert "tickets" [] := by decide +kernel
    rw [hnone] at h
    cases h with
    | insert _ hcolumns _ => exact hcolumns.ne_nil rfl
  refine ⟨⟨maps_shelf, ?_, ?_, ?_, ?_, ?_, ?_⟩, maps_ticket, ?_, hempty⟩
  all_goals decide +kernel

end Mapping

end Tablewright
