import Tablewright.Proofs.Filter.Accepted
import Tablewright.Proofs.Schema.Valid
import Tablewright.Proofs.Sql.Evaluation
import Tablewright.Proofs.Sql.RoundTrip

/-! What a filter means. A condition says something about a row in its own words: its
operands are columns and literals. The clause of an accepted request, read and evaluated as
a database does it with the bound values in the order of the marks, selects exactly the
rows of the tenant that meet every condition. -/

namespace Tablewright

open Sql

namespace FilterCondition

section Meets

variable (u : Casing) (s : RecordSchema) (row : String → Value)

/-- The value that an operand's text stands for where it is compared with a field: that of
the column it refers to, or the literal. -/
def operandValue? (f : Field) (text : String) : Option Value :=
  match reference? text with
  | some name =>
    ((s.field? name).filter fun g => g.valueType = f.valueType ∧ g.isColumn = true).map fun g =>
      row g.columnName
  | none =>
    match f.valueType.parseText text with
    | .ok v => v
    | .error _ => none

/-- A value as it is compared: text in capitals. -/
def compared (f : Field) (v : Value) : Value := if f.valueType = .text then u.fold v else v

/-- Whether the row's column compares with a value as it should. -/
def Compares (f : Field) (op : Comparison) (v : Value) : Prop :=
  op.holds (compared u f (row f.columnName)) (compared u f v) = true

/-- What an operator says about the column of a field. -/
def Holds (c : FilterCondition) (f : Field) : FilterOperator → Prop
  | .compare op => ∃ v, operandValue? s row f c.lowerText = some v ∧ Compares u row f op v
  | .contains => ∃ t, row f.columnName = .text t ∧
      (u.upper c.lowerText).toList <:+: (u.upper t).toList
  | .startsWith => ∃ t, row f.columnName = .text t ∧
      (u.upper c.lowerText).toList <+: (u.upper t).toList
  | .isIn => ∃ part ∈ elements c.lowerText, ∃ v, Spells f (Text.strip part) v ∧
      Compares u row f .eq v
  | .between => ∃ l h, operandValue? s row f c.lowerText = some l ∧
      operandValue? s row f c.upperText = some h ∧ Compares u row f .ge l ∧ Compares u row f .le h

/-- Whether a row meets a condition. -/
def Meets (c : FilterCondition) : Prop :=
  ∃ f op, s.field? c.field = some f ∧ c.operator? = some op ∧ c.Holds u s row f op

end Meets

variable {u : Casing} {s : RecordSchema} {row : String → Value} {c : FilterCondition} {f : Field}

/-! ## Operands -/

theorem Stands.value {text : String} {o : Operand} {vs : List Value} (h : Stands s f text o vs)
    (row : String → Value) :
    ∃ v, operandValue? s row f text = some v ∧
      ∀ rest, (evalOperand row o).run (vs ++ rest) = some (v, rest) := by
  cases h with
  | reference hname hg ht hc =>
    rename_i name g
    refine ⟨row g.columnName, ?_, fun rest => rfl⟩
    simp [operandValue?, hname, hg, ht, hc]
  | literal hnone hv =>
    rename_i v
    refine ⟨v, ?_, fun rest => rfl⟩
    rw [operandValue?, hnone]
    simp only [Spells] at hv
    rw [hv]

/-- The expression that compares a field with an operand. -/
def exprOf (f : Field) (o : Operand) : Expr := ⟨f.valueType == .text, o⟩

theorem eval_exprOf {o : Operand} {v : Value} {values rest : List Value}
    (h : (evalOperand row o).run values = some (v, rest)) :
    ((exprOf f o).eval u row).run values = some (compared u f v, rest) := by
  rw [Expr.eval, StateT.run_bind, exprOf, h]
  simp [compared]

theorem eval_column (values : List Value) :
    ((exprOf f (.column f.columnName)).eval u row).run values =
      some (compared u f (row f.columnName), values) := eval_exprOf rfl

theorem eval_marks {vs : List Value} (rest : List Value) :
    ((List.replicate vs.length (exprOf f .parameter)).mapM (Expr.eval u row)).run (vs ++ rest) =
      some (vs.map (compared u f), rest) := by
  induction vs with
  | nil => rfl
  | cons v vs ih =>
    have hv : ((exprOf f .parameter).eval u row).run (v :: (vs ++ rest)) =
        some (compared u f v, vs ++ rest) := eval_exprOf rfl
    rw [List.length_cons, List.replicate_succ, List.mapM_cons, StateT.run_bind, List.cons_append, hv]
    simp only [Option.bind_eq_bind, Option.bind_some, StateT.run_bind, ih]
    rfl

/-! ## Tests -/

/-- What is evaluated for a condition: it takes the condition's values and no others, and
comes out true just if the condition holds. -/
def Decides (u : Casing) (row : String → Value) (q : Condition) (values : List Value) (p : Prop) :
    Prop := ∃ b, (b = true ↔ p) ∧ ∀ rest, (q.eval u row).run (values ++ rest) = some (b, rest)

theorem decides_compare {op : Comparison} {right : Operand} {values : List Value}
    (h : Stands s f c.lowerText right values) :
    Decides u row (.compare (exprOf f (.column f.columnName)) op (exprOf f right)) values
      (c.Holds u s row f (.compare op)) := by
  obtain ⟨v, hv, hrun⟩ := h.value row
  refine ⟨op.holds (compared u f (row f.columnName)) (compared u f v), ?_, ?_⟩
  · constructor
    · intro hb
      exact ⟨v, hv, hb⟩
    · rintro ⟨w, hw, hb⟩
      rw [hv] at hw
      cases hw
      exact hb
  · intro rest
    rw [Condition.eval, StateT.run_bind, eval_column]
    simp only [Option.bind_eq_bind, Option.bind_some, StateT.run_bind, eval_exprOf (hrun rest)]
    rfl

theorem decides_between {lower upper : Operand} {ls us : List Value}
    (hl : Stands s f c.lowerText lower ls) (hu : Stands s f c.upperText upper us) :
    Decides u row (.between (exprOf f (.column f.columnName)) (exprOf f lower) (exprOf f upper))
      (ls ++ us) (c.Holds u s row f .between) := by
  obtain ⟨l, hlv, hlrun⟩ := hl.value row
  obtain ⟨h, huv, hurun⟩ := hu.value row
  refine ⟨Comparison.ge.holds (compared u f (row f.columnName)) (compared u f l) &&
    Comparison.le.holds (compared u f (row f.columnName)) (compared u f h), ?_, ?_⟩
  · rw [Bool.and_eq_true]
    constructor
    · rintro ⟨hge, hle⟩
      exact ⟨l, h, hlv, huv, hge, hle⟩
    · rintro ⟨l', h', hl', hh', hge, hle⟩
      rw [hlv] at hl'
      rw [huv] at hh'
      cases hl'
      cases hh'
      exact ⟨hge, hle⟩
  · intro rest
    rw [Condition.eval, StateT.run_bind, eval_column]
    simp only [Option.bind_eq_bind, Option.bind_some, StateT.run_bind, List.append_assoc,
      eval_exprOf (hlrun (us ++ rest)), eval_exprOf (hurun rest)]
    rfl

/-- Elements that spell values: one of the values compares with the column just if one of
the elements does. -/
theorem any_of_elements {parts : List String} {vs : List Value}
    (h : List.Forall₂ (fun part v => Spells f (Text.strip part) v) parts vs) :
    (vs.map (compared u f)).any (Comparison.eq.holds (compared u f (row f.columnName))) = true ↔
      ∃ part ∈ parts, ∃ v, Spells f (Text.strip part) v ∧ Compares u row f .eq v := by
  induction h with
  | nil => simp
  | @cons part v parts vs hv _ ih =>
    rw [List.map_cons, List.any_cons, Bool.or_eq_true, ih]
    constructor
    · rintro (hb | ⟨p, hp, hw⟩)
      · exact ⟨part, List.mem_cons_self, v, hv, hb⟩
      · exact ⟨p, List.mem_cons_of_mem part hp, hw⟩
    · rintro ⟨p, hp, w, hw, hb⟩
      rcases List.mem_cons.mp hp with rfl | hp
      · rw [Spells, hv] at hw
        cases hw
        exact .inl hb
      · exact .inr ⟨p, hp, w, hw, hb⟩

theorem decides_isIn {values : List Value}
    (h : List.Forall₂ (fun part v => Spells f (Text.strip part) v) (elements c.lowerText) values) :
    Decides u row (.isIn (exprOf f (.column f.columnName))
      (List.replicate values.length (exprOf f .parameter))) values (c.Holds u s row f .isIn) := by
  refine ⟨_, any_of_elements h, fun rest => ?_⟩
  rw [Condition.eval, StateT.run_bind, eval_column]
  simp only [Option.bind_eq_bind, Option.bind_some, StateT.run_bind, eval_marks]
  rfl

/-- A pattern test of a column of texts. -/
theorem decides_like {pattern : String} {p : Prop} (ht : f.valueType = .text)
    (hcomplete : Like.isComplete Like.escapeMark (u.upper pattern).toList = true)
    (h : p ↔ ∃ t, row f.columnName = .text t ∧
      Like.accepts Like.escapeMark (u.upper pattern).toList (u.upper t).toList = true) :
    Decides u row (.like (exprOf f (.column f.columnName)) (exprOf f .parameter) Like.escapeMark)
      [.text pattern] p := by
  have hpattern : ∀ rest, ((exprOf f .parameter).eval u row).run ([.text pattern] ++ rest) =
      some (.text (u.upper pattern), rest) := by
    intro rest
    rw [eval_exprOf (v := .text pattern) rfl, compared, if_pos ht]
    rfl
  have hvalue : compared u f (row f.columnName) = u.fold (row f.columnName) := if_pos ht
  cases hrow : row f.columnName with
  | text t =>
    refine ⟨Like.accepts Like.escapeMark (u.upper pattern).toList (u.upper t).toList, ?_, ?_⟩
    · rw [h]
      constructor
      · intro hb
        exact ⟨t, hrow, hb⟩
      · rintro ⟨t', ht', hb⟩
        rw [hrow] at ht'
        cases ht'
        exact hb
    · intro rest
      rw [Condition.eval, StateT.run_bind, eval_column, hvalue, hrow]
      simp only [Option.bind_eq_bind, Option.bind_some, StateT.run_bind, hpattern, Casing.fold]
      simp [likeText, hcomplete]
  | null | bool | int | decimal | nonFinite | float | date | timestamp | list | map =>
    refine ⟨false, ?_, ?_⟩
    · rw [h]
      constructor
      · intro hb
        cases hb
      · rintro ⟨t', ht', -⟩
        rw [hrow] at ht'
        cases ht'
    · intro rest
      rw [Condition.eval, StateT.run_bind, eval_column, hvalue, hrow]
      simp only [Option.bind_eq_bind, Option.bind_some, StateT.run_bind, hpattern, Casing.fold]
      simp [likeText]

theorem decides_startsWith (ht : f.valueType = .text) :
    Decides u row (.like (exprOf f (.column f.columnName)) (exprOf f .parameter) Like.escapeMark)
      [.text (Like.startingWith c.lowerText)] (c.Holds u s row f .startsWith) := by
  refine decides_like ht ?_ ?_
  · rw [u.upper_startingWith]
    exact Like.isComplete_leading
  · simp only [u.upper_startingWith, Like.accepts_startingWith]
    rfl

theorem decides_contains (ht : f.valueType = .text) :
    Decides u row (.like (exprOf f (.column f.columnName)) (exprOf f .parameter) Like.escapeMark)
      [.text (Like.containing c.lowerText)] (c.Holds u s row f .contains) := by
  refine decides_like ht ?_ ?_
  · rw [u.upper_containing]
    exact Like.isComplete_around
  · simp only [u.upper_containing, Like.accepts_containing]
    rfl

theorem decides_test {op : FilterOperator} {t : ColumnTest} {values : List Value}
    (h : c.Tests s f op t values) (u : Casing) (row : String → Value) :
    Decides u row (testCondition (exprOf f (.column f.columnName)) t) values (c.Holds u s row f op) := by
  cases h with
  | compare h => exact decides_compare h
  | contains ht _ => exact decides_contains ht
  | startsWith ht _ => exact decides_startsWith ht
  | isIn _ h => exact decides_isIn h
  | between hl hu => exact decides_between hl hu

theorem decides_resolved {conjunct : Conjunct} {values : List Value} (hf : s.field? c.field = some f)
    (h : c.Resolves s f conjunct values) (u : Casing) (row : String → Value) :
    Decides u row (condition conjunct) values (c.Meets u s row) := by
  obtain ⟨_, op, t, hop, ht, rfl⟩ := h
  obtain ⟨b, hb, hrun⟩ := decides_test ht u row
  refine ⟨b, ?_, hrun⟩
  rw [hb]
  constructor
  · intro hholds
    exact ⟨f, op, hf, hop, hholds⟩
  · rintro ⟨g, op', hg, hop', hholds⟩
    rw [hf] at hg
    rw [hop] at hop'
    cases hg
    cases hop'
    exact hholds

/-! ## Names -/

/-- The names of a record's columns are words. -/
def HasWords (s : RecordSchema) : Prop :=
  ∀ f ∈ s.columnFields, StoreStatement.isWord f.columnName = true

theorem word_of_field {name : String} {g : Field} (hw : HasWords s) (h : s.field? name = some g)
    (hc : g.isColumn = true) : StoreStatement.isWord g.columnName = true :=
  hw g (List.mem_filter.mpr ⟨s.field_mem h, hc⟩)

theorem Stands.isNamed {text : String} {o : Operand} {vs : List Value} (hw : HasWords s)
    (h : Stands s f text o vs) : IsNamed o := by
  cases h with
  | reference _ hg _ hc => exact word_of_field hw hg hc
  | literal _ _ => trivial

theorem Tests.isReadable {op : FilterOperator} {t : ColumnTest} {values : List Value}
    (hw : HasWords s) (h : c.Tests s f op t values) : IsReadableTest t := by
  cases h with
  | compare h => exact h.isNamed hw
  | contains | startsWith => trivial
  | isIn _ h =>
    intro hnil
    have hlen := h.length_eq
    rw [hnil, elements, List.length_map, List.length_eq_zero_iff] at hlen
    exact List.splitOn_ne_nil _ _ hlen
  | between hl hu => exact ⟨hl.isNamed hw, hu.isNamed hw⟩

theorem Resolves.isReadable {conjunct : Conjunct} {values : List Value} (hw : HasWords s)
    (hf : s.field? c.field = some f) (h : c.Resolves s f conjunct values) : IsReadable conjunct := by
  obtain ⟨hc, op, t, _, ht, rfl⟩ := h
  exact ⟨word_of_field hw hf hc, ht.isReadable hw⟩

end FilterCondition

namespace FilterRequest

open FilterCondition

variable {u : Casing} {s : RecordSchema} {row : String → Value}

/-- What is decided part by part is decided of all. -/
theorem eval_parts {α : Type} {P : α → Prop} {as : List α} {ps : List Part}
    (h : List.Forall₂ (fun a p => Decides u row (condition p.conjunct) p.values (P a)) as ps)
    (rest : List Value) :
    ∃ bs, ((ps.map fun p => condition p.conjunct).mapM (Condition.eval u row)).run
        (ps.flatMap (·.values) ++ rest) = some (bs, rest) ∧
      (bs.all id = true ↔ ∀ a ∈ as, P a) := by
  induction h with
  | nil => exact ⟨[], rfl, by simp⟩
  | cons hp _ ih =>
    obtain ⟨b, hb, hrun⟩ := hp
    obtain ⟨bs, hbs, hall⟩ := ih
    refine ⟨b :: bs, ?_, ?_⟩
    · rw [List.map_cons, List.mapM_cons, List.flatMap_cons, List.append_assoc, StateT.run_bind, hrun]
      simp only [Option.bind_eq_bind, Option.bind_some, StateT.run_bind, hbs]
      rfl
    · rw [List.all_cons, Bool.and_eq_true, hall, List.forall_mem_cons]
      exact and_congr_left fun _ => hb

/-- The row's tenant is the one that the filter is for, if the record has tenants. -/
def InTenant (s : RecordSchema) (row : String → Value) (tenant : Value) : Prop :=
  ∀ f, s.tenantField = some f → Comparison.eq.holds (row f.columnName) tenant = true

theorem columnText_eq {f : Field} (h : f.isColumn = true) : f.columnText = f.columnName := by
  rw [Field.isColumn, Bool.and_eq_true] at h
  obtain ⟨column, hcolumn⟩ := Option.isSome_iff_exists.mp h.1
  rw [Field.columnText, Field.columnName, hcolumn]
  rfl

theorem tenantField_isColumn (hs : s.Sound) {f : Field} (h : s.tenantField = some f) :
    f.isColumn = true := by
  obtain ⟨hm, hr⟩ := hs.tenant_mem h
  exact hs.isColumn_of_role hm (by rw [hr]; rfl)

theorem decides_tenantPart {f : Field} (h : f.isColumn = true) (tenant : Value) :
    Decides u row (condition (tenantPart f tenant).conjunct) (tenantPart f tenant).values
      (Comparison.eq.holds (row f.columnName) tenant = true) := by
  have hcondition : condition (tenantPart f tenant).conjunct =
      .compare ⟨false, .column f.columnName⟩ .eq ⟨false, .parameter⟩ := by
    simp only [tenantPart, condition, columnText_eq h]
  rw [hcondition]
  exact ⟨_, Iff.rfl, fun rest => rfl⟩

theorem decides_tenant (hs : s.Sound) (tenant : Value) (u : Casing) (row : String → Value) :
    List.Forall₂ (fun (f : Field) (p : Part) => Decides u row (condition p.conjunct) p.values
        (Comparison.eq.holds (row f.columnName) tenant = true))
      s.tenantField.toList (tenantParts s tenant) := by
  unfold tenantParts
  cases ht : s.tenantField with
  | none => exact .nil
  | some f => exact .cons (decides_tenantPart (tenantField_isColumn hs ht) tenant) .nil

theorem selects_parts {c : Clause} {cs : List FilterCondition} {ps : List Part} {tenant : Value}
    (hs : s.Sound) (h : List.Forall₂ (Contributes s) cs ps)
    (hc : c.conditions = (tenantParts s tenant ++ ps).map fun p => condition p.conjunct) :
    ∃ b, c.selects u row ((tenantParts s tenant ++ ps).flatMap (·.values)) = some b ∧
      (b = true ↔ InTenant s row tenant ∧ ∀ cond ∈ cs, cond.Meets u s row) := by
  have hfilters := h.imp fun c p hp => decides_resolved hp.1 hp.2 u row
  obtain ⟨bs, hbs, hall⟩ := eval_parts hfilters []
  obtain ⟨ts, hts, htenant⟩ := eval_parts (decides_tenant hs tenant u row)
    (ps.flatMap (·.values))
  rw [List.append_nil] at hbs
  refine ⟨(ts ++ bs).all id, ?_, ?_⟩
  · rw [Clause.selects, hc, List.map_append, List.mapM_append, List.flatMap_append, StateT.run_bind, hts]
    simp only [Option.bind_eq_bind, Option.bind_some, StateT.run_bind, hbs]
    rfl
  · rw [List.all_append, Bool.and_eq_true, htenant, hall, InTenant]
    simp only [Option.mem_toList]

/-! ## Accepted requests -/

theorem isReadable_filter {request : FilterRequest} {bound : Int} {ps : List Part}
    (hs : s.Sound) (hw : HasWords s) (hbound : 0 < bound)
    (h : List.Forall₂ (Contributes s) request.filters ps) (tenant : Value) :
    IsReadableClause (filterOf s request bound (tenantParts s tenant ++ ps)).clause where
  conjuncts := by
    intro q hq
    obtain ⟨p, hp, rfl⟩ := List.mem_map.mp hq
    rcases List.mem_append.mp hp with ht | hp
    · obtain ⟨f, hf, rfl⟩ := List.mem_map.mp ht
      have hcol := tenantField_isColumn hs (Option.mem_toList.mp hf)
      have hm := (hs.tenant_mem (Option.mem_toList.mp hf)).1
      rw [tenantPart, columnText_eq hcol]
      exact hw f (List.mem_filter.mpr ⟨hm, hcol⟩)
    · obtain ⟨n, hn⟩ := List.getElem?_of_mem hp
      obtain ⟨hlt, rfl⟩ := List.getElem?_eq_some_iff.mp hn
      have hlen : n < request.filters.length := by rw [h.length_eq]; exact hlt
      obtain ⟨hfield, hr⟩ := h.get hlen hlt
      exact hr.isReadable hw hfield
  sorts := by
    intro c hc
    obtain ⟨e, he, rfl⟩ := List.mem_map.mp hc
    obtain ⟨sort, _, hsort⟩ := List.mem_filterMap.mp he
    obtain ⟨f, hf, rfl⟩ := Option.map_eq_some_iff.mp hsort
    obtain ⟨hfield, hcol⟩ := Option.filter_eq_some_iff.mp hf
    exact word_of_field hw hfield hcol
  limit := by
    show 0 ≤ rowLimit request.maxRows bound
    unfold rowLimit
    split
    · split
      · rename_i hn
        exact Int.le_of_lt hn.1
      · exact Int.le_of_lt hbound
    · exact Int.le_of_lt hbound

/-- What an accepted filter puts out are columns of the record. -/
theorem mem_outputFields {request : FilterRequest} {tenant : Value} {bound : Int}
    {c : CompiledFilter} {j k : Journal} (h : (request.compile s tenant bound).Returns j (some c) k) :
    ∀ f ∈ c.outputFields, f ∈ s.columnFields := by
  obtain ⟨_, ps, _, rfl⟩ := returns_compile h
  intro f hf
  obtain ⟨name, _, hname⟩ := List.mem_filterMap.mp hf
  obtain ⟨hfield, hcol⟩ := Option.filter_eq_some_iff.mp hname
  exact List.mem_filter.mpr ⟨s.field_mem hfield, hcol⟩

/-- An accepted filter selects the rows of the tenant that meet every condition. -/
theorem selects_compiled {request : FilterRequest} {tenant : Value} {bound : Int}
    {c : CompiledFilter} {j k : Journal} (hs : s.Sound)
    (h : (request.compile s tenant bound).Returns j (some c) k) (u : Casing) (row : String → Value) :
    ∃ b, (clauseOf c.clause).selects u row c.values = some b ∧
      (b = true ↔ InTenant s row tenant ∧ ∀ cond ∈ request.filters, cond.Meets u s row) := by
  obtain ⟨_, ps, hps, rfl⟩ := returns_compile h
  refine selects_parts hs hps ?_
  rw [clauseOf, filterOf, List.map_map]
  rfl

/-- The clause of an accepted request can be read, selects exactly the rows that the request
asks for among those of the tenant, and sorts and limits them as the request says. -/
theorem compile_means {request : FilterRequest} {tenant : Value} {bound : Int} {c : CompiledFilter}
    {j k : Journal} (hs : s.Valid) (hw : HasWords s) (hbound : 0 < bound)
    (h : (request.compile s tenant bound).Returns j (some c) k) :
    ∃ clause, Clause.ofText? c.clauseText = some clause ∧
      (∀ (u : Casing) (row : String → Value), ∃ b, clause.selects u row c.values = some b ∧
        (b = true ↔ InTenant s row tenant ∧ ∀ cond ∈ request.filters, cond.Meets u s row)) ∧
      clause.sorts = request.sorts.filterMap (fun sort =>
        ((s.field? sort.field).filter Field.isColumn).map fun f => ⟨f.columnName, sort.descending⟩) ∧
      (clause.limit : Int) = (match request.maxRows with
        | some n => if 0 < n ∧ n ≤ bound then n else bound
        | none => bound) := by
  have hselects := selects_compiled hs.sound h
  obtain ⟨_, ps, hps, rfl⟩ := returns_compile h
  have hreadable := isReadable_filter hs.sound hw hbound hps tenant
  refine ⟨_, ofText?_toText hreadable, hselects, ?_, ?_⟩
  · show (request.sorts.filterMap (sortColumn? s)).map _ = _
    rw [List.map_filterMap]
    refine List.filterMap_congr fun sort _ => ?_
    rw [sortColumn?, Option.map_map]
    rfl
  · exact Int.toNat_of_nonneg hreadable.limit

theorem compile_means_invoice : ∃ c k clause,
    (hostileRequest.compile RecordSchema.invoice (.int 1) 50).Returns {} (some c) k ∧
    Clause.ofText? c.clauseText = some clause ∧ (clause.limit : Int) = 10 ∧
    ∀ row : String → Value, ∃ b, clause.selects .ascii row c.values = some b ∧
      (b = true ↔ InTenant RecordSchema.invoice row (.int 1) ∧
        ∀ cond ∈ hostileRequest.filters, cond.Meets .ascii RecordSchema.invoice row) := by
  have hwords : HasWords RecordSchema.invoice := by
    unfold HasWords
    decide +kernel
  obtain ⟨c, k, hc, -⟩ := Check.returns_of_found
    (c := hostileRequest.compile RecordSchema.invoice (.int 1) 50) (j := {}) (by decide +kernel)
  obtain ⟨clause, htext, hselects, -, hlimit⟩ :=
    compile_means RecordSchema.invoice_valid hwords (by decide) hc
  exact ⟨c, k, clause, hc, htext, hlimit, hselects .ascii⟩

end FilterRequest

end Tablewright
