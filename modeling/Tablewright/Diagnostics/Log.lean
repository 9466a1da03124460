/-! Log lines. What the engine notes while it works is part of its answer: a list of
lines, each with its level and the part of the engine it comes from. -/

namespace Tablewright

namespace Log

inductive Level where
  | debug
  | info
  | warning
  | error
  deriving DecidableEq, Repr, Inhabited

def Level.name : Level → String
  | debug => "DEBUG"
  | info => "INFO"
  | warning => "WARNING"
  | error => "ERROR"

/-- The parts of the engine that write log lines. -/
inductive Source where
  | fields
  | schema
  | filters
  | linkage
  | synthesizer
  | registry
  | handles
  | connections
  deriving DecidableEq, Repr, Inhabited

/-- The logger a part writes to. -/
def Source.name : Source → String
  | fields => "recordsql.domain.fields"
  | schema => "recordsql.domain.schema"
  | filters => "recordsql.sql.filters"
  | linkage => "recordsql.sql.linkage"
  | synthesizer => "recordsql.sql.synthesizer"
  | registry => "recordsql.registry"
  | handles => "recordsql.infrastructure.handles"
  | connections => "recordsql.infrastructure.db_factory"

end Log

structure LogLine where
  level : Log.Level
  source : Log.Source
  text : String
  deriving DecidableEq, Repr, Inhabited

end Tablewright
