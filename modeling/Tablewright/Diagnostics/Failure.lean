import Tablewright.Diagnostics.Problem
import Tablewright.Text.Quoted

/-! Failures: what ends an operation without a result. Problems of a request are messages
and an absent row is an answer; what is left are faults of declarations, of the caller's
own values, and of the database. -/

namespace Tablewright

/-- Why a link between two records cannot be used. -/
inductive LinkFault where
  /-- The two field lists do not pair up. -/
  | unpaired (link : String) (parentFields childFields : Nat)
  | unknownField (field side record : String)
  | notAColumn (field record : String)
  | cycle (record : String)
  deriving DecidableEq, Repr, Inhabited

namespace LinkFault

def toText : LinkFault → String
  | unpaired link parentFields childFields =>
    "Link " ++ link ++ ": " ++ Integer.toText parentFields ++ " parent fields but " ++
      Integer.toText childFields ++ " child fields"
  | unknownField field side record =>
    "Field " ++ field ++ " is defined as " ++ side ++ " link field, but is not a field of record " ++
      record
  | notAColumn field record => "Link field " ++ field ++ " of record " ++ record ++ " is not a column"
  | cycle record => "Record " ++ record ++ " is linked as a child of itself"

end LinkFault

/-- The ways in which a connection fails. -/
inductive ConnectionFault where
  | operational
  | interface
  | programming
  deriving DecidableEq, Repr, Inhabited

/-- Why an operation ended without a result. -/
inductive Failure where
  /-- A rounded number has too many digits, or a text given as a decimal is none. -/
  | decimalRange
  /-- A value of a type that has no conversion. -/
  | unconvertible
  /-- An infinity where an integer is needed, or more rounds than a pattern can ask for. -/
  | infinite
  /-- The mark of a missing number, or too many digits, where an integer is needed. -/
  | missingNumber
  /-- A name outside a closed list of names, or one that excludes another. -/
  | unknownName
  /-- A value that is no map where a payload is needed. -/
  | notAMap
  /-- A default was asked of settings that were not loaded. -/
  | noSettings
  /-- A value rule has a pattern that cannot be read. -/
  | badPattern
  | rowLength (record : String) (actual expected : Nat)
  /-- A row without the position that was asked for. -/
  | rowPosition
  | noRowsAffected (operation record keys : String)
  | badSchema (record : String) (problems : List String)
  | badLink (fault : LinkFault)
  | unknownRecord (name : String)
  | badShape (problems : List Problem)
  | database (text : String)
  | readonlyHandle
  | connection (fault : ConnectionFault) (text : String)
  deriving DecidableEq, Repr, Inhabited

namespace Failure

/-- The text of a failure that has one. -/
def message? : Failure → Option String
  | rowLength record actual expected =>
    some ("Row for " ++ record ++ " has " ++ Integer.toText actual ++ " values, expected " ++
      Integer.toText expected)
  | noRowsAffected operation record keys =>
    some (operation ++ " failed silently for " ++ record ++ ": " ++ keys)
  | badSchema record problems =>
    some ("Record '" ++ record ++ "' has an invalid definition: " ++
      (if problems.isEmpty then "no details" else "; ".intercalate problems))
  | badLink fault => some fault.toText
  | unknownRecord name => some ("No record named " ++ Text.quoted name ++ " is registered")
  | database text => some text
  | readonlyHandle => some "write attempted on a read-only handle"
  | connection _ text => some text
  | _ => none

end Failure

end Tablewright
