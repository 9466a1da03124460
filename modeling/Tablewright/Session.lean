import Tablewright.Handle.Device
import Tablewright.Link.Basic
import Tablewright.Registry

/-! Sessions: a registry, a workspace and a device to work on, and names for what is worked
with. Rows and trees are held by reference, so all names of a row see what is written
into it. -/

namespace Tablewright

/-- What a name stands for. -/
inductive Held where
  | row (r : RowRef)
  | rows (rs : List RowRef)
  | tree (t : RowTree RowRef)
  | trees (ts : List (RowTree RowRef))
  | compiled (c : CompiledFilter)
  deriving Repr

structure Session where
  registry : Registry := {}
  workspace : Workspace := {}
  /-- A name may also stand for nothing. -/
  names : List (String × Option Held) := []
  device : Device
  deriving Repr

/-- Work in a session. What has happened stays as it is if it fails. -/
abbrev InSession (α : Type) := ExceptT Failure (StateM Session) α

namespace Session

variable {α : Type}

def registering (r : Registering α) : InSession α := .mk fun s =>
  let ((outcome, registry), journal) := (r.run.run s.registry).run s.workspace.journal
  (outcome, { s with registry := registry, workspace := { s.workspace with journal := journal } })

def working (w : Work α) : InSession α := .mk fun s =>
  let ((outcome, workspace), device) := s.device.run (w.start s.workspace)
  (outcome, { s with workspace := workspace, device := device })

def checking (c : Check α) : InSession α := working (Work.check c)

def lift (r : Except Failure α) : InSession α := .mk (return r)

/-- What work ended with, its failure included. -/
def caught (x : InSession α) : InSession (Except Failure α) := .mk fun s =>
  let (r, s) := x.run.run s
  (.ok r, s)

def onDevice (f : Device → Device) : InSession Unit := modify fun s => { s with device := f s.device }

/-! ### Names -/

def held? (name : String) : InSession (Option Held) :=
  return (Entries.get? name (← get).names).join

def keep (name : String) (h : Option Held) : InSession Unit :=
  modify fun s => { s with names := Entries.put name h s.names }

/-- The row that a name stands for. -/
def rowOf (name : String) : InSession RowRef := do
  match ← held? name with
  | some (.row r) => return r
  | some (.tree t) => return t.row
  | _ => throw .notAMap

def rowsOf (name : String) : InSession (List RowRef) := do
  match ← held? name with
  | some (.rows rs) => return rs
  | some (.trees ts) => return ts.map RowTree.row
  | _ => throw .notAMap

def treeOf (name : String) : InSession (RowTree RowRef) := do
  match ← held? name with
  | some (.tree t) => return t
  | some (.row r) => return .leaf r
  | _ => throw .notAMap

def compiledOf (name : String) : InSession CompiledFilter := do
  match ← held? name with
  | some (.compiled c) => return c
  | _ => throw .notAMap

/-! ### Steps -/

/-- Begins a step: what was asked and reported before is put aside, and these answers are
ahead. -/
def beginStep (items : List ScriptItem) : InSession Unit := do
  onDevice fun d => d.forget.withItems items
  modify fun s =>
    { s with workspace := { s.workspace with journal := { s.workspace.journal with messages := [] } } }

/-- Puts more answers behind those that are ahead. -/
def addItems (items : List ScriptItem) : InSession Unit :=
  onDevice fun d => d.withItems (d.items ++ items)

def onConnection (f : Script ConnectionEvent → α × Script ConnectionEvent) : InSession α := .mk fun s =>
  let (a, device) := s.device.onConnection f
  (.ok a, { s with device := device })

/-- Works in a transaction, which is committed if the work says that it succeeded. -/
def transact (readonly : Bool) (timeoutMs : Int) (body : InSession (α × Bool)) :
    InSession (Except Failure α) := do
  let before := (← get).device.isReadonly
  let opened ← onConnection (Connection.scripted.openTransaction timeoutMs)
  onDevice (·.setReadonly readonly)
  let outcome ← match opened with
    | .ok () => caught body
    | .error f => pure (.error f)
  let succeeded := match outcome with
    | .ok (_, ok) => ok
    | .error _ => false
  let line ← onConnection (Connection.scripted.settle succeeded)
  working (modify (·.noteAll [line]))
  onDevice (·.setReadonly before)
  return outcome.map (·.1)

end Session

end Tablewright
