import Tablewright.CommandLine.Run
import Tablewright.Report.Layout

/-! The program: the words of the command line and the environment go in, files are read
where the command names them, and what comes out is printed. -/

namespace Tablewright.Main

def faultOf : IO.Error → CommandLine.FileFault
  | .inappropriateType .. => .directory
  | _ => .missing

def readPath (path : String) : IO (String × Except CommandLine.FileFault String) := do
  try
    return (path, .ok (← IO.FS.readFile path))
  catch e =>
    return (path, .error (faultOf e))

def readEnvironment : IO (List (String × String)) :=
  Settings.variableNames.filterMapM fun name => do
    return (← IO.getEnv name).map (name, ·)

/-- The files that the words of the command line name. -/
def readFiles (words : List String) : IO CommandLine.Files := do
  let paths := ((CommandLine.Command.ofWords? words).map (·.paths)).getD []
  let found ← paths.mapM readPath
  return fun path => (Entries.get? path found).getD (.error .missing)

def printSaid (s : CommandLine.Said) : IO Unit :=
  if s.isError then IO.eprintln s.text else IO.println s.text

def printLine (l : LogLine) : IO Unit :=
  IO.eprintln (l.level.name ++ " | " ++ l.source.name ++ " | " ++ l.text)

def printOutcome (settings : Settings) (o : CommandLine.Outcome) : IO UInt32 := do
  (o.shownLog settings).forM printLine
  o.printed.forM fun r => r.lines.forM IO.println
  o.said.forM printSaid
  o.failure.forM fun f => IO.eprintln (f.message?.getD "failed")
  return o.exitCode.toUInt32

end Tablewright.Main

open Tablewright in
def main (words : List String) : IO UInt32 := do
  match Settings.decode { environment := ← Main.readEnvironment } with
  | .accepted settings =>
    Main.printOutcome settings (CommandLine.run (← Main.readFiles words) settings words)
  | .refused problems =>
    problems.forM fun p => IO.eprintln p.kind.name
    return 1
