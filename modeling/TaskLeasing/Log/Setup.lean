import TaskLeasing.Json.Basic
import TaskLeasing.Log

namespace TaskLeasing

/-- How records are written: those of a threshold's level and graver, for people to read or as
JSON. -/
structure LogSetup where
  environment : String
  /-- No records at all without one. -/
  threshold : Option LogLevel
  json : Bool
deriving DecidableEq

/-- The thresholds by their names. -/
def thresholdNames : List (String × Option LogLevel) :=
  [("trace", some .trace), ("debug", some .debug), ("info", some .info), ("warn", some .warn),
    ("error", some .error), ("off", none)]

/-- The threshold of an environment where none is named. -/
def environmentThreshold (environment : String) : LogLevel :=
  if environment = "production" then .info else .debug

/-- Reads a setup off the variables of an environment. Names of thresholds and of the format count in
any case, the name of the environment as it is. -/
def LogSetup.ofVariables (vars : List (String × String)) : LogSetup :=
  let environment := match lookupField "EXTASK_ENV" vars with
    | some name => name
    | none => (lookupField "APP_ENV" vars).getD "development"
  let named := (lookupField "RUST_LOG" vars).bind fun name => lookupField name.toLower thresholdNames
  { environment := environment
    threshold := named.getD (some (environmentThreshold environment))
    json := (lookupField "EXTASK_LOG_FORMAT" vars).any fun format => format.toLower = "json" }

/-- Something that is logged: that logging was set up, a structured record, or a plain message from
elsewhere. -/
inductive LogEntry
  | initialized (environment : String) (json : Bool)
  | structured (record : LogRecord)
  | plain (level : LogLevel) (target message : String)
deriving DecidableEq

def LogEntry.level : LogEntry → LogLevel
  | .initialized .. => .info
  | .structured record => record.level
  | .plain level .. => level

/-- The part of a program that an entry comes from. -/
def LogEntry.target : LogEntry → String
  | .initialized .. => "external_task_handler::logging"
  | .structured (.panic ..) => "external_task_handler::host"
  | .structured _ => "external_task_handler::logging"
  | .plain _ target _ => target

def LogEntry.message : LogEntry → String
  | .initialized .. => "🔧 STRUCTURED LOGGING: Initialized"
  | .structured record => record.message
  | .plain _ _ message => message

def LogEntry.fields : LogEntry → List (String × Json)
  | .initialized environment json => [("environment", .text environment), ("json", .bool json)]
  | .structured record => record.fields.map fun (name, value) => (name, .text value)
  | .plain .. => []

def LogSetup.writes (setup : LogSetup) (entry : LogEntry) : Bool :=
  setup.threshold.any fun threshold => threshold.rank ≤ entry.level.rank

/-- What is written of entries after logging was set up a number of times. Only the first time counts;
nothing is written without it, or where logging was in other hands before. -/
def LogSetup.written (setup : LogSetup) (times : Nat) (elsewhere : Bool) (entries : List LogEntry) :
    List LogEntry :=
  if times = 0 ∨ elsewhere then []
  else (LogEntry.initialized setup.environment setup.json :: entries).filter setup.writes

end TaskLeasing
