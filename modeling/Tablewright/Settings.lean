import Tablewright.Decoder

/-! Settings: where the database is, how much is logged, and how statements are made.
They come from the environment; values that the application gives itself win. -/

namespace Tablewright

structure Settings where
  dbHost : String := "localhost"
  dbPort : Int := 5432
  dbUser : String := "postgres"
  dbPassword : String := "postgres"
  dbName : String := "recordsql"
  dbStatementTimeoutMs : Int := 0
  dbPoolMinSize : Int := 1
  dbPoolMaxSize : Int := 10
  appEnv : String := "development"
  logLevel : String := "INFO"
  sqlLogLevel : Option String := none
  maxRowsToFilter : Int := 1000
  treatNullAsZero : Bool := true
  timestampFunction : String := "CURRENT_TIMESTAMP"
  deriving DecidableEq, Repr, Inhabited

namespace Settings

/-- What is set from outside: the environment's texts, and the application's values. -/
structure Sources where
  environment : List (String × String) := []
  values : List (String × Value) := []

/-- A setting's value and the name it was given under. Names in the environment can be in
any case; of several for one setting the last one counts. -/
def Sources.find? (s : Sources) (variableName field : String) : Option (String × Value) :=
  match Decoder.entry? [variableName, field] s.values with
  | some found => some found
  | none =>
    (s.environment.reverse.find? fun e => e.1.map Char.toLower == variableName.map Char.toLower).map fun e =>
      (variableName, .text e.2)

/-- One setting, which keeps its default where nothing is set. -/
def Sources.read {α : Type} (s : Sources) (variableName field : String) (default : α)
    (d : Decoder α) : Decoded α :=
  match s.find? variableName field with
  | some (name, v) => (d v).within (.key name)
  | none => .accepted default

def decode (s : Sources) : Decoded Settings :=
  let d : Settings := {}
  mk <$> s.read "DB_HOST" "db_host" d.dbHost .text
    <*> s.read "DB_PORT" "db_port" d.dbPort .integer
    <*> s.read "DB_USER" "db_user" d.dbUser .text
    <*> s.read "DB_PASSWORD" "db_password" d.dbPassword .text
    <*> s.read "DB_NAME" "db_name" d.dbName .text
    <*> s.read "DB_STATEMENT_TIMEOUT_MS" "db_statement_timeout_ms" d.dbStatementTimeoutMs .integer
    <*> s.read "DB_POOL_MIN_SIZE" "db_pool_min_size" d.dbPoolMinSize .integer
    <*> s.read "DB_POOL_MAX_SIZE" "db_pool_max_size" d.dbPoolMaxSize .integer
    <*> s.read "APP_ENV" "app_env" d.appEnv .text
    <*> s.read "LOG_LEVEL" "log_level" d.logLevel .text
    <*> s.read "SQL_LOG_LEVEL" "sql_log_level" d.sqlLogLevel (.optional .text)
    <*> s.read "MAX_ROWS_TO_FILTER" "max_rows_to_filter" d.maxRowsToFilter (.above 0 .integer)
    <*> s.read "TREAT_NULL_AS_ZERO" "treat_null_as_zero" d.treatNullAsZero .boolean
    <*> s.read "TIMESTAMP_FUNCTION" "timestamp_function" d.timestampFunction .text

/-- Every setting under its name, in the order in which settings are listed. -/
def entries (s : Settings) : List (String × Value) :=
  [("db_host", .text s.dbHost), ("db_port", .int s.dbPort), ("db_user", .text s.dbUser),
    ("db_password", .text s.dbPassword), ("db_name", .text s.dbName),
    ("db_statement_timeout_ms", .int s.dbStatementTimeoutMs),
    ("db_pool_min_size", .int s.dbPoolMinSize), ("db_pool_max_size", .int s.dbPoolMaxSize),
    ("app_env", .text s.appEnv), ("log_level", .text s.logLevel),
    ("sql_log_level", Value.ofOption (s.sqlLogLevel.map .text)),
    ("max_rows_to_filter", .int s.maxRowsToFilter), ("treat_null_as_zero", .bool s.treatNullAsZero),
    ("timestamp_function", .text s.timestampFunction)]

/-- The names of the variables that settings are taken from. -/
def variableNames : List String := ({} : Settings).entries.map fun e => e.1.map Char.toUpper

/-- The address of the database with user and password. -/
def dataSource (s : Settings) : String :=
  "postgresql://" ++ s.dbUser ++ ":" ++ s.dbPassword ++ "@" ++ s.dbHost ++ ":" ++
    Integer.toText s.dbPort ++ "/" ++ s.dbName

end Settings

end Tablewright
