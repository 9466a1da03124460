import Tablewright.Entries
import Tablewright.Json.Writer
import Tablewright.Logging.Severity
import Tablewright.Logging.Template

/-! Log lines as JSON, one object each: the level, the logger and the message, and then
whatever else was attached to the line, under its own names. -/

namespace Tablewright.Logging

/-- A log line before it is written. -/
structure LogRecord where
  name : String
  level : Severity
  template : Value
  args : List Value := []
  /-- The name and the text of an exception that is logged with the line. -/
  exception : Option (String × String) := none
  /-- What was attached to the line, in order. -/
  extra : List (String × Value) := []
  deriving Repr, Inhabited

namespace LogRecord

/-- The names that every line has something under; what is attached under one of them is
not shown as an entry. -/
def standardNames : List String :=
  ["name", "msg", "args", "levelname", "levelno", "pathname", "filename", "module", "exc_info",
    "exc_text", "stack_info", "lineno", "funcName", "created", "msecs", "relativeCreated", "thread",
    "threadName", "processName", "process", "message", "asctime", "taskName", "extra"]

/-- The last value that was attached under a name. -/
def attached? (r : LogRecord) (name : String) : Option Value :=
  Entries.get? name r.extra.reverse

/-- An exception's name, with its text if it has one. -/
def exceptionText (name text : String) : String := if text = "" then name else name ++ ": " ++ text

/-- The message: the template with the arguments in it. -/
def messageText (r : LogRecord) : Except Failure String :=
  let template := ((r.attached? "msg").getD r.template).display
  match r.attached? "args" with
  | none => Template.fill template r.args
  | some v => if v.truthy then Template.fill template [v] else .ok template

/-- The exception's entry, unless something else was put in its place. -/
def exceptionEntries (r : LogRecord) : List (String × Value) :=
  if (r.attached? "exc_info").isSome then []
  else r.exception.toList.map fun (name, text) => ("exc_info", .text (exceptionText name text))

/-- The entries of a map that is attached as a whole. -/
def nestedEntries (r : LogRecord) : List (String × Value) :=
  match r.attached? "extra" with
  | some (.map es) => es
  | _ => []

def putAll (entries more : List (String × Value)) : List (String × Value) :=
  more.foldl (fun es (name, v) => Entries.put name v es) entries

/-- Every entry of the line. -/
def entries (r : LogRecord) : Except Failure (List (String × Value)) := do
  let message ← r.messageText
  let base := [("level", (r.attached? "levelname").getD (.text r.level.label)),
    ("logger", (r.attached? "name").getD (.text r.name)), ("message", .text message)]
  let own := putAll [] (r.extra.filter fun (name, _) => !standardNames.contains name)
  return putAll (putAll (putAll base r.exceptionEntries) own) r.nestedEntries

/-- The line as JSON. -/
def toJson (r : LogRecord) : Except Failure String :=
  r.entries.map fun es => Json.write Json.isAscii (.map es)

end LogRecord

end Tablewright.Logging
