import Tablewright.CommandLine.Arguments
import Tablewright.Json.Reader
import Tablewright.Logging.Configuration
import Tablewright.Registry
import Tablewright.Report

/-! The commands: showing the settings, the statements of declared records, and what
becomes of a filter request. -/

namespace Tablewright.CommandLine

/-- Why a file cannot be read. -/
inductive FileFault where
  | missing
  | directory
  | notDirectory
  deriving DecidableEq, Repr, Inhabited

namespace FileFault

def toText (path : String) : FileFault → String
  | missing => "[Errno 2] No such file or directory: " ++ Text.quoted path
  | directory => "[Errno 21] Is a directory: " ++ Text.quoted path
  | notDirectory => "[Errno 20] Not a directory: " ++ Text.quoted path

end FileFault

/-- Why data cannot be had from a file. -/
inductive LoadFault where
  | file (path : String) (fault : FileFault)
  | json (fault : Json.Fault)
  | failure (f : Failure)
  deriving Repr, Inhabited

namespace LoadFault

/-- The text of a fault, as far as it is the program's own. -/
def toText : LoadFault → String
  | file path fault => fault.toText path
  | json (.tooLong digits) =>
    "Exceeds the limit (" ++ Integer.toText Integer.maxDigits ++
      " digits) for integer string conversion: value has " ++ Integer.toText digits ++
      " digits; use sys.set_int_max_str_digits() to increase the limit"
  | json .malformed => ""
  | failure f => f.message?.getD ""

end LoadFault

/-- Something that the program says. -/
structure Said where
  text : String
  isError : Bool := true
  /-- The fault whose own words are left out. -/
  cause : Option LoadFault := none
  deriving Repr, Inhabited

/-- What a command comes to. -/
structure Outcome where
  exitCode : Nat := 0
  said : List Said := []
  printed : List Report := []
  /-- A failure that the program has no words for. -/
  failure : Option Failure := none
  log : List LogLine := []
  deriving Repr, Inhabited

namespace Outcome

/-- A remark on the error output that ends the program. -/
def stop (exitCode : Nat) (text : String) : Outcome := { exitCode := exitCode, said := [⟨text, true, none⟩] }

def ofFailure (f : Failure) : Outcome := { exitCode := 1, failure := some f }

/-- Words that make no sense. -/
def badUsage : Outcome := { exitCode := 2 }

/-- The end of a program that the user interrupts. -/
def interrupted : Outcome := stop 130 "Cancelled by user."

end Outcome

/-- The contents of files by path. -/
abbrev Files := String → Except FileFault String

/-- The value that a file holds, read as declared. -/
def loadFile {α : Type} (files : Files) (path : String) (d : Decoder α) : Except LoadFault α :=
  match files path with
  | .error fault => .error (.file path fault)
  | .ok text => match Json.ofText text with
    | .error fault => .error (.json fault)
    | .ok v => (d v).toExcept.mapError fun problems => .failure (.badShape problems)

/-- Whether a fault's own words are left to whoever found it. -/
def LoadFault.isWordless : LoadFault → Bool
  | json .malformed | failure (.badShape _) => true
  | _ => false

/-- A remark about a file that could not be used. -/
def cannotLoad (what path : String) (fault : LoadFault) : Outcome :=
  let cause := if fault.isWordless then some fault else none
  { exitCode := 1, said := [⟨what ++ " " ++ path ++ ": " ++ fault.toText, true, cause⟩] }

/-- Whether a failure to register declarations is said in one line. -/
def isDefinitionFault : Failure → Bool
  | .badSchema .. | .badLink _ | .noRowsAffected .. => true
  | _ => false

/-- Work on a registry that begins with the declarations of a file. -/
def withRegistry (files : Files) (settings : Settings) (path : String)
    (use : Registering Outcome) : Outcome :=
  match loadFile files path Declarations.decode with
  | .error fault => cannotLoad "Could not load" path fault
  | .ok d =>
    let start : Registry := { settings := settings }
    let ((declared, r), j) := ((Registry.declare d).run.run start).run {}
    match declared with
    | .error f =>
      let outcome := if isDefinitionFault f then cannotLoad "Could not load" path (.failure f)
        else .ofFailure f
      { outcome with log := j.log }
    | .ok () =>
      let ((used, _), j) := (use.run.run r).run j
      { (match used with
          | .ok outcome => outcome
          | .error f => Outcome.ofFailure f) with log := j.log }

/-- Prints the settings. -/
def runInfo (settings : Settings) : Outcome := { printed := [.settings settings] }

/-- A failure to find or map a record, as the program says it. -/
def sayFailure (f : Failure) : Outcome :=
  match f with
  | .unknownRecord _ | .badSchema .. | .badLink _ | .noRowsAffected .. => .stop 1 (f.message?.getD "")
  | f => .ofFailure f

/-- Prints the statements of one record, or of every record that is mapped to a table. -/
def runSql (record : Option String) : Registering Outcome := do
  let mapped := ((← get).schemas.filter (·.2.isDbRecord)).map (·.1)
  let names := match record.filter (· != "") with
    | some name => [name]
    | none => mapped
  tryCatch
    (do
      let mappings ← names.mapM Registry.mapping
      return { printed := mappings.map Report.statements })
    fun f => return sayFailure f

/-- The caller's tenant: a text, read as the tenant field's type if the record has one. -/
def readTenant (s : RecordSchema) (tenant : Option String) : Except Failure Value :=
  match tenant, s.tenantField with
  | none, _ => .ok .null
  | some text, none => .ok (.text text)
  | some text, some f => (f.valueType.parseText text).map Value.ofOption

/-- Compiles a request and prints what became of it. -/
def compileRequest (settings : Settings) (s : RecordSchema) (request : FilterRequest)
    (tenant : Option String) (maxRows : Option Int) : Check Outcome := do
  let tenant ← .mk (return readTenant s tenant)
  let compiled ← request.compile s tenant (maxRows.getD settings.maxRowsToFilter)
  let reports := Report.messages (← get).messages
  match compiled with
  | none => return { Outcome.stop 2 "Filter request rejected." with printed := reports }
  | some c => return { printed := reports ++ Report.compiledFilter c }

def runFilter (files : Files) (settings : Settings)
    (declarations record request : String) (tenant : Option String) (maxRows : Option Int) :
    Registering Outcome := do
  match Entries.get? record (← get).schemas with
  | none => return .stop 1 ("No record named " ++ Text.quoted record ++ " in " ++ declarations)
  | some s => match loadFile files request FilterRequest.decode with
    | .error fault => return cannotLoad "Could not read filter request" request fault
    | .ok r => Registry.check (compileRequest settings s r tenant maxRows)

def logging (settings : Settings) : Except Failure Logging.Configuration :=
  Logging.Configuration.build settings.logLevel false settings.sqlLogLevel

/-- An outcome under the settings' log levels, which have to be known ones. -/
def configure (settings : Settings) (outcome : Outcome) : Outcome :=
  match logging settings with
  | .ok _ => outcome
  | .error f => .ofFailure f

/-- The log lines of an outcome that come out. -/
def Outcome.shownLog (o : Outcome) (settings : Settings) : List LogLine :=
  match logging settings with
  | .ok c => o.log.filter c.shows
  | .error _ => []

def Command.run (files : Files) (settings : Settings) : Command → Outcome
  | .help => {}
  | .info => runInfo settings
  | .sql declarations record =>
    configure settings (withRegistry files settings declarations (runSql record))
  | .filter declarations record request tenant maxRows =>
    configure settings (withRegistry files settings declarations
      (runFilter files settings declarations record request tenant maxRows))

/-- The outcome of the words of a command line. -/
def run (files : Files) (settings : Settings) (words : List String) : Outcome :=
  match Command.ofWords? words with
  | some command => command.run files settings
  | none => .badUsage

end Tablewright.CommandLine
