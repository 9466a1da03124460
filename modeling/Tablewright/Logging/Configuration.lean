import Tablewright.Diagnostics.Failure
import Tablewright.Diagnostics.Log
import Tablewright.Logging.Severity

/-! Which log lines come out. Everything goes through one handler; statements have a level
of their own, so that they can be traced without all the rest. -/

namespace Tablewright.Logging

structure Configuration where
  /-- The level of everything that has none of its own. -/
  root : Severity
  /-- What the handler lets through. -/
  handler : Severity
  statements : Severity
  json : Bool
  deriving DecidableEq, Repr, Inhabited

namespace Configuration

/-- The handler lets statements through when their level is the lower one. -/
def ofLevels (level statements : Severity) (json : Bool) : Configuration where
  root := level
  handler := if statements.rank < level.rank then statements else level
  statements := statements
  json := json

/-- The configuration for named levels. An empty name leaves statements with the common
level. Two levels can be compared only if both names are known or neither is. -/
def build (level : String) (json : Bool) (statements : Option String) :
    Except Failure Configuration :=
  match statements.filter (· != "") with
  | none => match Severity.ofName? level with
    | some l => .ok (ofLevels l l json)
    | none => .error .unknownName
  | some statements => match Severity.ofName? level, Severity.ofName? statements with
    | some l, some s => .ok (ofLevels l s json)
    | none, none => .error .unknownName
    | _, _ => .error .unconvertible

/-- The level that counts for a part of the engine. A level that is not set is the
common one. -/
def effective (c : Configuration) (source : Log.Source) : Severity :=
  if source = .handles ∧ c.statements ≠ .notSet then c.statements else c.root

/-- The severity of a line of a level. -/
def severityOf : Log.Level → Severity
  | .debug => ⟨10⟩
  | .info => ⟨20⟩
  | .warning => ⟨30⟩
  | .error => ⟨40⟩

/-- Whether a line comes out: its part lets it through, and so does the handler. -/
def shows (c : Configuration) (l : LogLine) : Bool :=
  max (c.effective l.source).rank c.handler.rank ≤ (severityOf l.level).rank

end Configuration

end Tablewright.Logging
