import Tablewright.Link.Reading
import Tablewright.Proofs.Mapping.Marshal

/-! Reading a row with all that hangs below it asks for queries and for nothing else, whatever it is
answered. -/

namespace Tablewright

open Work

/-- The call finds rows and changes nothing: its text is that of a query. -/
def Call.IsSelect : Call → Prop
  | .read sql .. | .readMany sql .. => "SELECT ".toList <+: sql.toList
  | _ => False

theorem Statement.prefix_select (table : String) (columns conditions : List String) :
    "SELECT ".toList <+: (select table columns conditions).toText.toList := by
  rw [toText.eq_def]
  dsimp only
  split <;> simp [withClause, List.append_assoc]

namespace Mapping

variable {m : Mapping}

theorem prefix_clauseSql {text : String} (h : "SELECT ".toList <+: text.toList)
    (clause : Option String) : "SELECT ".toList <+: (clauseSql text clause).toList := by
  unfold clauseSql
  split
  · exact h
  · split
    · exact h
    · rw [Statement.withClause, String.toList_append, String.toList_append, List.append_assoc]
      exact h.trans (List.prefix_append ..)

theorem asks_collectRows {fields : List Field} {sql : String} {values : List Value}
    {types : List ValueType} (h : "SELECT ".toList <+: sql.toList) :
    Asks Call.IsSelect (m.collectRows fields sql values types) :=
  (asks_ask (c := .readMany ..) h).bind fun _ =>
    (asks_throughRows fun _ _ => asks_keepRow.bind fun _ => asks_pure).bind fun _ => asks_pure

theorem asks_filter {clause : Option String} {values : List Value}
    {types : Option (List ValueType)} : Asks Call.IsSelect (m.filter clause values types) :=
  asks_collectRows (prefix_clauseSql (Statement.prefix_select ..) clause)

theorem asks_filterFirst {clause : Option String} {values : List Value}
    {types : Option (List ValueType)} : Asks Call.IsSelect (m.filterFirst clause values types) := by
  refine (asks_ask (c := .read ..) (prefix_clauseSql (Statement.prefix_select ..) clause)).bind
    fun found => ?_
  split
  · exact asks_pure
  · exact asks_keepRow.bind fun _ => asks_pure

theorem asks_filterCompiled {c : CompiledFilter} : Asks Call.IsSelect (m.filterCompiled c) := by
  unfold filterCompiled
  split
  · exact asks_filter
  · exact asks_lift.bind fun fields =>
      asks_collectRows (prefix_clauseSql (Statement.prefix_select ..) _)

theorem asks_read {r : RowRef} : Asks Call.IsSelect (m.read r) := by
  unfold read
  split
  · exact (asks_note.bind fun _ => asks_pure).bind fun _ => asks_pure
  · refine asks_row.bind fun row => asks_lift.bind fun values =>
      (asks_ask (c := .read ..) (Statement.prefix_select ..)).bind fun found => ?_
    split
    · exact asks_pure
    · exact asks_copyInto.bind fun _ => asks_pure

end Mapping

namespace LinkTree

theorem asks_childRows {l : Link} {r : RowRef} : Asks Call.IsSelect (l.childRows r) := by
  refine (asks_mapM fun _ => asks_valueAt).bind fun values => ?_
  split
  · exact Mapping.asks_filter
  · exact Mapping.asks_filterFirst.bind fun _ => asks_pure

mutual

theorem asks_read : ∀ (t : LinkTree) (r : RowRef), Asks Call.IsSelect (t.read r)
  | node l below, r => by
    rw [LinkTree.read]
    split
    · exact asks_note.bind fun _ => asks_pure
    · exact asks_childRows.bind fun _ => (asks_mapM fun r =>
        (asks_readAll below r []).bind fun _ => asks_pure).bind fun _ => asks_pure

theorem asks_readAll : ∀ (ts : List LinkTree) (r : RowRef)
    (found : List (String × List (RowTree RowRef))), Asks Call.IsSelect (readAll ts r found)
  | [], r, found => by
    rw [readAll]
    exact asks_pure
  | t :: ts, r, found => by
    rw [readAll]
    exact (asks_read t r).bind fun trees => asks_readAll ts r _

end

end LinkTree

namespace LinkedRecord

theorem asks_treeOf {lr : LinkedRecord} {r : RowRef} : Asks Call.IsSelect (lr.treeOf r) :=
  (LinkTree.asks_readAll lr.links r []).bind fun _ => asks_pure

theorem asks_read {lr : LinkedRecord} {r : RowRef} : Asks Call.IsSelect (lr.read r) := by
  refine Mapping.asks_read.bind fun found => ?_
  split
  · exact asks_treeOf.bind fun _ => asks_pure
  · exact asks_pure

theorem asks_filter {lr : LinkedRecord} {c : CompiledFilter} : Asks Call.IsSelect (lr.filter c) :=
  Mapping.asks_filterCompiled.bind fun _ => asks_mapM fun _ => asks_treeOf

end LinkedRecord

end Tablewright
