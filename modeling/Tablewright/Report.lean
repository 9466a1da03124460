import Tablewright.Diagnostics.Message
import Tablewright.Filter.Compile
import Tablewright.Mapping.Basic
import Tablewright.Settings

/-! Reports: tables and lines for people to read. Brackets around a word say how it is to
be shown. -/

namespace Tablewright

structure ReportTable where
  title : String
  caption : Option String := none
  columns : List String
  rows : List (List String)
  deriving DecidableEq, Repr, Inhabited

inductive Report where
  | line (text : String)
  | table (t : ReportTable)
  deriving DecidableEq, Repr, Inhabited

namespace Report

/-- A text to be shown in a style. -/
def styled (style text : String) : String := "[" ++ style ++ "]" ++ text ++ "[/" ++ style ++ "]"

/-- The settings in force. The password is not shown. -/
def settings (s : Settings) : Report :=
  .table {
    title := "recordsql settings"
    columns := ["Setting", "Value"]
    rows := s.entries.map fun (name, v) =>
      [name, if name = "db_password" then "***" else v.display] }

/-- One row of a statement, or the remark that the record has none. -/
def statementRow (operation : String) (sql : Option String) (places : List Nat) : List String :=
  match sql with
  | some sql => [operation, sql, ", ".intercalate (places.map fun (i : Nat) => Integer.toText i)]
  | none => [operation, styled "dim" "n/a", ""]

/-- The statements of a record. -/
def statements (m : Mapping) : Report :=
  .table {
    title := m.schema.name ++ " " ++ styled "dim" ("(" ++ m.table ++ ")")
    caption := some "Parameter indexes refer to positions in the row"
    columns := ["Operation", "SQL", "Params"]
    rows := m.describe.map fun (operation, sql, places) => statementRow operation sql places }

def kindStyle : MessageKind → String
  | .error => "red"
  | .warning => "yellow"
  | .info => "blue"
  | .success => "green"

/-- The messages of a request, if there are any. -/
def messages (ms : List Message) : List Report :=
  if ms.isEmpty then []
  else [.table {
    title := "Messages"
    columns := ["Kind", "Field", "Text"]
    rows := ms.map fun m => [styled (kindStyle m.kind) m.kind.name, m.field.getD "", m.text] }]

/-- The parameters of a compiled filter. -/
def parameters (c : CompiledFilter) : Report :=
  .table {
    title := "Parameters"
    caption := some ("Row limit " ++ Integer.toText c.maxRows)
    columns := ["#", "Type", "Value"]
    rows := (c.values.zip c.types).zipIdx.map fun ((v, t), i) =>
      [Integer.toText i, t.name, v.literal] }

/-- A compiled filter: its clause, its parameters, and the fields it selects. -/
def compiledFilter (c : CompiledFilter) : List Report :=
  [.line (styled "bold" "Clause:" ++ " " ++ c.clauseText), parameters c] ++
    (if c.outputFields.isEmpty then []
      else [.line (styled "bold" "Fields:" ++ " " ++
        ", ".intercalate (c.outputFields.map (·.name)))])

end Report

end Tablewright
