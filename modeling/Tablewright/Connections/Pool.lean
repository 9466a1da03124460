import Tablewright.Diagnostics.Log
import Tablewright.Settings

/-! The pool of connections of a process. It is opened when it is first asked for and
stays the same until it is closed. -/

namespace Tablewright

structure Pool where
  /-- How many pools were opened before this one. -/
  number : Nat
  dataSource : String
  minSize : Int
  maxSize : Int
  deriving DecidableEq, Repr, Inhabited

/-- The owner of the pool, with every pool that it has opened and closed. -/
structure PoolManager where
  current : Option Pool := none
  opened : Nat := 0
  /-- The pools that were closed. -/
  closed : List Pool := []
  deriving DecidableEq, Repr, Inhabited

namespace PoolManager

def openedLine (settings : Settings) : LogLine :=
  ⟨.info, .connections, "[POOL] opened for " ++ settings.dbHost ++ ":" ++
    Integer.toText settings.dbPort ++ "/" ++ settings.dbName⟩

/-- The open pool, or a new one. Sizes count for a new pool only, and come from the
settings where none are given. -/
def get (m : PoolManager) (settings : Settings) (minSize maxSize : Option Int) :
    Pool × PoolManager × List LogLine :=
  match m.current with
  | some pool => (pool, m, [])
  | none =>
    let pool : Pool := {
      number := m.opened
      dataSource := settings.dataSource
      minSize := minSize.getD settings.dbPoolMinSize
      maxSize := maxSize.getD settings.dbPoolMaxSize }
    (pool, { m with current := some pool, opened := m.opened + 1 }, [openedLine settings])

/-- Closes the open pool. A pool that cannot be closed properly is given up all the same. -/
def close (m : PoolManager) (fault : Option String) : PoolManager × List LogLine :=
  match m.current with
  | none => (m, [])
  | some pool =>
    ({ m with current := none, closed := m.closed ++ [pool] },
      fault.toList.map fun text => ⟨.warning, .connections, "[POOL] close failed: " ++ text⟩)

/-- How often each pool was closed, in the order in which they were opened. -/
def closeCounts (m : PoolManager) : List Nat :=
  (List.range m.opened).map fun i => (m.closed.filter (·.number == i)).length

end PoolManager

end Tablewright
