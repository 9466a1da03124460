import Tablewright.Proofs.Link.Calls
import Tablewright.Proofs.Link.Cascade

/-! The value that is bound for a column of a link. Child rows are saved with the parent's value in
the column, and that value is bound like any other of the child row: null in a numeric column is
zero if the child's mapping says so. What child rows are read and deleted by is the parent's value
as it is. The two are the same unless the parent's value is null and would be filled in. -/

namespace Tablewright

open Work

theorem Mapping.fill_eq_iff (m : Mapping) (t : ValueType) (v : Value) : m.fill t v = v ↔
    ¬ (v.isNull = true ∧ m.nullAsZero = true ∧ t.isNumeric = true) := by
  unfold fill
  cases v with
  | null =>
    cases m.nullAsZero with
    | false => simp [Value.isNull]
    | true => cases t <;> simp [Value.isNull, ValueType.isNumeric, ValueType.zero]
  | _ => simp [Value.isNull]

namespace Link

variable {l : Link} {schema : RecordSchema} {base : Row} {e : Field × Field} {v : Value}

/-- If no two pairs have the same column, the one pair of a column tells its value. -/
theorem pair_of_column (hn : (l.pairs.map (·.2.index)).Nodup) (he : e ∈ l.pairs) :
    (∃ o ∈ l.pairs, o.2 = e.2 ∧ v = base.getD o.1.index .null) ↔
      v = base.getD e.1.index .null := by
  constructor
  · intro h
    obtain ⟨o, ho, hcolumn, rfl⟩ := h
    rw [List.inj_on_of_nodup_map hn ho he (congrArg Field.index hcolumn)]
  · intro h
    exact ⟨e, he, rfl, h⟩

/-- What is bound for a column of the link when a child row is saved. -/
theorem SaveCall.binds (hl : l.Built schema) (hn : (l.pairs.map (·.2.index)).Nodup)
    (he : e ∈ l.pairs) {call : Call} (hcall : l.SaveCall base call)
    (hbinds : call.Binds l.marked e.2 v) :
    v = l.child.fill e.2.valueType (base.getD e.1.index .null) := by
  obtain ⟨child, hlen, hcall⟩ := hcall
  have hvalue : v = l.child.boundValue e.2 (l.carried base child) := by
    rcases hcall with ⟨-, rfl⟩ | ⟨-, rfl⟩
    · exact (binds_updateCall.mp hbinds).2
    · exact (binds_insertCall.mp hbinds).2
  have hplace : e.2.index < child.length := by
    rw [hlen]
    exact hl.child.sound.index_lt (hl.sound.children _ (List.mem_map_of_mem he))
  rw [hvalue, Mapping.boundValue, carried, carry_once hn he hplace]

end Link

namespace LinkedRecord

/-- What is bound for a column of a link, where no two pairs have the same column. When child rows
are saved it is the parent's value with null filled in as the child's mapping says; when they are
read or deleted it is the parent's value as it is, and when the parent row itself is deleted it is
the value with null filled in as the parent's mapping says. So the first and the second are the same
unless the parent's value is null and the child's mapping makes it a zero; and the second and the
third unless it is null and the parent's mapping does. Nothing depends on what the handle replies. -/
theorem link_values_bound {σ : Type} {lr : LinkedRecord} (hl : lr.Built) {t : LinkTree}
    (ht : t ∈ lr.links) (hn : (t.link.pairs.map (·.2.index)).Nodup) {w : Workspace}
    {parent : RowRef} (hlen : (w.row parent).length = lr.mapping.schema.fields.length)
    {rs : List RowRef} (hne : parent ∉ rs) {p c : Field} (hpair : (p, c) ∈ t.link.pairs)
    (h : Handle σ) (s : σ) :
    let value := (w.row parent).getD p.index .null
    (∀ call ∈ ((t.save parent rs).start w).asked h s, ∀ v,
      call.Binds t.link.marked c v → v = t.link.child.fill c.valueType value) ∧
    (∃ call, (((t.read parent).start w).asked h s).head? = some call ∧
      ∀ v, call.Binds t.link.marked c v ↔ v = value) ∧
    (t.isWritable = true → ∃ call, ((t.delete parent).start w).asked h s = [call] ∧
      ∀ v, call.Binds t.link.marked c v ↔ v = value) ∧
    (∀ call ∈ ((lr.delete parent).start w).asked h s,
      (∃ o ∈ lr.links, call = o.link.deleteCall (w.row parent)) ∨
      (p ∈ lr.mapping.whereFields → ∀ v, call.Binds lr.mapping.marked p v ↔
        v = lr.mapping.fill p.valueType value)) ∧
    (t.link.child.fill c.valueType value = value ↔ ¬ (value.isNull = true ∧
      t.link.child.nullAsZero = true ∧ c.valueType.isNumeric = true)) ∧
    (lr.mapping.fill p.valueType value = value ↔ ¬ (value.isNull = true ∧
      lr.mapping.nullAsZero = true ∧ p.valueType.isNumeric = true)) := by
  intro value
  have hb := hl.links t ht
  have hplaces := hb.parent_lt hlen
  have hlinked : t.link.isLinked = true := by
    rw [Link.isLinked, Bool.not_eq_true', List.isEmpty_eq_false_iff]
    exact List.ne_nil_of_mem hpair
  have hsingle (v : Value) : (∃ o ∈ t.link.pairs, o.2 = c ∧ v = (w.row parent).getD o.1.index .null) ↔
      v = value := Link.pair_of_column hn hpair
  refine ⟨?_, ?_, fun hwritable => ?_, ?_, Mapping.fill_eq_iff .., Mapping.fill_eq_iff ..⟩
  · intro call hcall v hbinds
    exact (LinkTree.saveCall_of_asked hne h s call hcall).binds hb hn hpair hbinds
  · exact ⟨_, LinkTree.readCall_of_asked hlinked hplaces h s,
      fun v => (Link.binds_readCall hlinked).trans (hsingle v)⟩
  · exact ⟨_, LinkTree.deleteCall_of_asked hwritable hplaces h s,
      fun v => Link.binds_deleteCall.trans (hsingle v)⟩
  · intro call hcall
    rcases lr.deleteCall_of_asked w parent h s call hcall with hlink | rfl
    · exact .inl hlink
    · exact .inr fun hp v => by simp [Mapping.binds_deleteCall, hp, Mapping.boundValue, value]

/-! ## An order that is not stored yet -/

/-- Lines of orders, with null counted as zero. -/
def zeroLines : Mapping := { lines with nullAsZero := true }

def zeroLinesLink : Link := ((Link.build linesDeclaration orders zeroLines).result? {}).getD default

theorem zeroLinesLink_built : zeroLinesLink.child = zeroLines ∧
    zeroLinesLink.Built orders.schema :=
  Link.built_of_result (RecordSchema.valid_declared (by decide +kernel))
    (RecordSchema.valid_declared (by decide +kernel)) (by decide +kernel)

def zeroOrderRecord : LinkedRecord := ⟨orders, [.node zeroLinesLink []]⟩

theorem zeroOrderRecord_built : zeroOrderRecord.Built where
  valid := RecordSchema.valid_declared (by decide +kernel)
  links := by
    intro t ht
    rw [List.mem_singleton.mp ht]
    exact zeroLinesLink_built.2

/-- A line of an order without an id is saved with zero as the order's id, and looked for and
deleted with null. -/
theorem link_values_bound_order : ∃ e ∈ zeroLinesLink.pairs,
    (∀ call ∈ (((LinkTree.node zeroLinesLink []).save 0 [1]).start orderRows).asked counting [],
      ∀ v, call.Binds zeroLinesLink.marked e.2 v → v = zeroLines.fill .integer .null) ∧
    zeroLines.fill .integer .null ≠ .null ∧
    ∃ call, (((LinkTree.node zeroLinesLink []).delete 0).start orderRows).asked counting [] = [call] ∧
      ∀ v, call.Binds zeroLinesLink.marked e.2 v ↔ v = .null := by
  have hlinked : zeroLinesLink.isLinked = true := by decide +kernel
  have hsome : zeroLinesLink.pairs ≠ [] := by simpa [Link.isLinked] using hlinked
  obtain ⟨e, he⟩ := List.exists_mem_of_ne_nil _ hsome
  refine ⟨e, he, ?_⟩
  have hpairs : ∀ e ∈ zeroLinesLink.pairs, e.1.index = 0 ∧ e.2.valueType = .integer := by
    decide +kernel
  obtain ⟨hindex, htype⟩ := hpairs e he
  have hnull : (orderRows.row 0).getD e.1.index .null = .null := by
    rw [hindex]
    rfl
  have hlength : (orderRows.row 0).length = orders.schema.fields.length := by decide +kernel
  have hapart : 0 ∉ [1] := by decide
  obtain ⟨hsave, -, hdelete, -⟩ := link_values_bound zeroOrderRecord_built
    (t := .node zeroLinesLink []) List.mem_cons_self (by decide +kernel) hlength hapart he counting []
  have hchild : (LinkTree.node zeroLinesLink []).link.child = zeroLines := zeroLinesLink_built.1
  rw [hnull, hchild, htype] at hsave
  rw [hnull] at hdelete
  exact ⟨hsave, nofun, hdelete (by decide +kernel)⟩

end LinkedRecord

end Tablewright
