import Tablewright.Mapping.Batch
import Tablewright.Proofs.Idle

/-! Operations that a record does not support. Each of them looks for what it needs before it does
anything else: keys, and for an update something to set. Where that is missing it is noted, and
that is all. -/

namespace Tablewright.Mapping

open Work

/-- Whether a record supports an operation. All need keys, and an update a column to set. -/
def supports (m : Mapping) : RowOperation → Bool
  | .update => m.canUpdate
  | _ => m.hasKeys

variable {m : Mapping} {w : Workspace}

theorem refuse_idle (m : Mapping) (operation : String) (w : Workspace) :
    (m.refuse operation).Idle w false := idle_note.bind fun _ _ => idle_pure

/-- What is refused goes no further. -/
theorem idle_of_refused {supported : Bool} {operation : String} {rest : Work Bool}
    (h : supported = false) :
    (do
      if !supported then return ← m.refuse operation
      rest : Work Bool).Idle w false := by
  subst h
  exact (m.refuse_idle operation w).bind fun _ _ => idle_pure

theorem perform_idle {op : RowOperation} (h : m.supports op = false) (r : RowRef) (w : Workspace) :
    (m.perform op r).Idle w false := by
  cases op <;> exact idle_of_refused h

theorem insertAll_idle (h : m.supports .insert = false) (rs : List RowRef) (w : Workspace) :
    (m.insertAll rs).Idle w false := idle_of_refused h

theorem updateAll_idle (h : m.supports .update = false) (rs : List RowRef) (w : Workspace) :
    (m.updateAll rs).Idle w false := idle_of_refused h

theorem saveAll_idle (h : m.supports .save = false) (rs : List RowRef) (w : Workspace) :
    (m.saveAll rs).Idle w false := idle_of_refused h

end Tablewright.Mapping
