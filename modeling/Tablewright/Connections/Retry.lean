import Tablewright.Diagnostics.Failure

/-! Connecting to a database. A connection that fails for a passing reason is tried again
after a wait, a few times; any other failure is final. -/

namespace Tablewright

/-- Whether a failure may pass. -/
def ConnectionFault.isTransient : ConnectionFault → Bool
  | operational | interface => true
  | programming => false

/-- How connecting went. -/
structure Connecting where
  outcome : Except Failure Unit
  attempts : Nat
  /-- The seconds waited between the attempts. -/
  waits : List Nat
  deriving Repr

namespace Connecting

def maxAttempts : Nat := 3

def longestWait : Nat := 10

/-- The wait after an attempt doubles each time. -/
def waitAfter (attempt : Nat) : Nat := min longestWait (Nat.pow 2 (attempt - 1))

def isTransient : Failure → Bool
  | .connection fault _ => fault.isTransient
  | _ => false

/-- Attempts from some number on, with so many of them left. -/
def connectFrom (attempt : Nat → Except Failure Unit) : (left number : Nat) → Connecting
  | 0, number => ⟨attempt number, number, []⟩
  | left + 1, number =>
    match attempt number with
    | .ok () => ⟨.ok (), number, []⟩
    | .error f =>
      if isTransient f then
        let next := connectFrom attempt left (number + 1)
        { next with waits := waitAfter number :: next.waits }
      else ⟨.error f, number, []⟩

/-- Connects, where an attempt is known by its number. -/
def connect (attempt : Nat → Except Failure Unit) : Connecting :=
  connectFrom attempt (maxAttempts - 1) 1

end Connecting

end Tablewright
