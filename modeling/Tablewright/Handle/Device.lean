import Tablewright.Handle.Scripted
import Tablewright.Handle.Transaction
import Tablewright.Store.Handle

/-! What work can be tried out on: a script alone, a store of tables, or a connection that
follows a script. All of them keep what they were asked. -/

namespace Tablewright

inductive Device where
  | scripted (s : Script Call × Unit)
  | tables (s : Script Call × TableStore)
  | connected (readonly : Bool) (s : Script ConnectionEvent)
  deriving Repr

/-- What a device was asked. -/
inductive Asked where
  | call (c : Call)
  | event (e : ConnectionEvent)
  deriving Repr

namespace Device

/-- Runs a task on the device. -/
def run {α : Type} (t : Task α) : Device → α × Device
  | scripted s =>
    let (a, s) := t.run Handle.scripted s
    (a, scripted s)
  | tables s =>
    let (a, s) := t.run (Handle.supervised fun _ => Dialect.plain.handle) s
    (a, tables s)
  | connected readonly s =>
    let (a, s) := t.run (Connection.scripted.handle readonly) s
    (a, connected readonly s)

def items : Device → List ScriptItem
  | scripted s => s.1.items
  | tables s => s.1.items
  | connected _ s => s.items

/-- The device with other answers ahead. -/
def withItems (items : List ScriptItem) : Device → Device
  | scripted s => scripted ({ s.1 with items := items }, s.2)
  | tables s => tables ({ s.1 with items := items }, s.2)
  | connected readonly s => connected readonly { s with items := items }

/-- The device without what it was asked. -/
def forget : Device → Device
  | scripted s => scripted ({ s.1 with asked := [] }, s.2)
  | tables s => tables ({ s.1 with asked := [] }, s.2)
  | connected readonly s => connected readonly { s with asked := [] }

def asked : Device → List Asked
  | scripted s => s.1.asked.map .call
  | tables s => s.1.asked.map .call
  | connected _ s => s.asked.map .event

/-- The tables of a device that has any. -/
def stored : Device → List (String × Table)
  | tables s => s.2.tables
  | _ => []

/-- Does something with the connection of a device; another device stays as it is. -/
def onConnection {α : Type} (f : Script ConnectionEvent → α × Script ConnectionEvent) :
    Device → α × Device
  | connected readonly s =>
    let (a, s) := f s
    (a, connected readonly s)
  | d => ((f {}).1, d)

def isReadonly : Device → Bool
  | connected readonly _ => readonly
  | _ => false

def setReadonly (readonly : Bool) : Device → Device
  | connected _ s => connected readonly s
  | d => d

end Device

end Tablewright
