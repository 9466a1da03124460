import Tablewright.Link.Basic
import Tablewright.Schema.Build

/-! The records of an application by name, with their links. Mappings and linked records
are built when they are first asked for and kept until what they were built from changes,
so that each is built, and its limits noted, once. -/

namespace Tablewright

structure Registry where
  settings : Settings := {}
  /-- How every mapping treats nulls, if it is not left to the settings. -/
  nullAsZero : Option Bool := none
  /-- How every mapping stamps rows, if it is not left to the settings. -/
  clock : Option String := none
  schemas : List (String × RecordSchema) := []
  links : List LinkDeclaration := []
  mappings : List (String × Mapping) := []
  linked : List (String × LinkedRecord) := []
  deriving Repr, Inhabited

/-- Work on a registry. What was kept stays kept if it fails. -/
abbrev Registering (α : Type) := ExceptT Failure (StateT Registry (StateM Journal)) α

namespace Registry

def names (r : Registry) : List String := r.schemas.map (·.1)

/-- The links of a record to its children, in the order of declaration. -/
def linksOf (links : List LinkDeclaration) (parent : String) : List LinkDeclaration :=
  links.filter (·.parent == parent)

/-- A check as part of work on a registry. -/
def check {α : Type} (c : Check α) : Registering α := .mk fun r j =>
  let (outcome, j) := c.run.run j
  ((outcome, r), j)

/-- Registers a schema under its name. An earlier one of that name is replaced, with a
warning, and what was built on it is dropped. -/
def registerSchema (s : RecordSchema) : Registering Unit := do
  if !s.isValid then throw (.badSchema s.name (s.faults.map SchemaFault.toText))
  let r ← get
  if (Entries.get? s.name r.schemas).isSome then
    check (.note .warning .registry
      ("Record " ++ s.name ++ " registered again. Earlier definition replaced."))
  set { r with
    schemas := Entries.put s.name s r.schemas
    mappings := r.mappings.filter (·.1 != s.name)
    linked := [] }

/-- Builds the schema of a declaration and registers it. -/
def register (d : RecordDeclaration) : Registering RecordSchema := do
  let s ← check (RecordSchema.build d)
  registerSchema s
  return s

def schema (name : String) : Registering RecordSchema := do
  match Entries.get? name (← get).schemas with
  | some s => return s
  | none => throw (.unknownRecord name)

/-- Keeps a link between two registered records. Its fields are looked up when it is first
used. -/
def addLink (d : LinkDeclaration) : Registering Unit := do
  let _ ← schema d.parent
  let _ ← schema d.child
  modify fun r => { r with links := r.links ++ [d], linked := [] }

/-- The mapping of a record. -/
def mapping (name : String) : Registering Mapping := do
  match Entries.get? name (← get).mappings with
  | some m => return m
  | none =>
    let s ← schema name
    let r ← get
    let m ← check (Mapping.build r.settings r.nullAsZero r.clock s)
    modify fun r => { r with mappings := Entries.put name m r.mappings }
    return m

/-- The records that have links to children. -/
def parents (links : List LinkDeclaration) : List String := (links.map (·.parent)).eraseDups

/-- The links of a record with the links of their children, and so on. The records that
may still be unfolded grow fewer on the way down; one that has been unfolded above is
linked to itself. -/
def unfold (links : List LinkDeclaration) (remaining : List String) (parent : String) :
    Registering (List LinkTree) :=
  if (linksOf links parent).isEmpty then return []
  else if _ : parent ∈ remaining then
    (linksOf links parent).mapM fun d => do
      let p ← mapping d.parent
      let c ← mapping d.child
      let below ← unfold links (remaining.erase parent) d.child
      return .node (← check (Link.build d p c)) below
  else throw (.badLink (.cycle parent))
termination_by remaining.length
decreasing_by
  have := List.length_pos_of_mem ‹parent ∈ remaining›
  rw [List.length_erase_of_mem ‹parent ∈ remaining›]
  omega

/-- A record with all its links. -/
def linkedRecord (name : String) : Registering LinkedRecord := do
  match Entries.get? name (← get).linked with
  | some lr => return lr
  | none =>
    let m ← mapping name
    let links := (← get).links
    let lr : LinkedRecord := ⟨m, ← unfold links (parents links) name⟩
    modify fun r => { r with linked := Entries.put name lr r.linked }
    return lr

/-- Registers everything in a declarations file. -/
def declare (d : Declarations) : Registering Unit := do
  d.records.forM fun record => do let _ ← register record
  d.links.forM addLink

end Registry

end Tablewright
