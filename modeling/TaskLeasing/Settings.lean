import TaskLeasing.Text.Blank
import TaskLeasing.Time.Span

namespace TaskLeasing

/-- How a worker leases and processes tasks. -/
structure Settings where
  workerId : String
  lockTimeoutMs : UInt64
  sweepIntervalMs : UInt64
  sweepOnStartup : Bool
  maxConcurrent : UInt64
  leasePerDefinition : Bool
  retryDelayMs : UInt64
  timeoutMessage : String
deriving DecidableEq

/-- What settings are refused for. -/
inductive SettingsError
  | fileNotFound (path : String)
  | unreadable
  | invalidValue (field reason : String)
deriving DecidableEq

/-- The text of an error. What a reader found wrong with a source is not kept. -/
def SettingsError.message : SettingsError → String
  | .fileNotFound path => "Configuration file not found: " ++ path
  | .unreadable => "Failed to load configuration"
  | .invalidValue field reason => "Invalid configuration value for '" ++ field ++ "': " ++ reason

def SettingsError.messages (error : SettingsError) : List String := [error.message]

def defaultTimeoutMessage : String := "Response timeout expired"

def Settings.defaults (workerId : String) : Settings where
  workerId := workerId
  lockTimeoutMs := 60000
  sweepIntervalMs := 60000
  sweepOnStartup := true
  maxConcurrent := 16
  leasePerDefinition := true
  retryDelayMs := 5000
  timeoutMessage := defaultTimeoutMessage

/-- What a worker is called when neither its settings nor its host name it. -/
def workerIdStem : String := "worker"

/-- The name of a worker that has none: the host's, or a common one if the host has none, and a
unique mark. -/
def defaultWorkerId (hostname : Option String) (mark : String) : String :=
  match hostname with
  | some host => (if isBlankText host then workerIdStem else host) ++ "-" ++ mark
  | none => workerIdStem ++ "-" ++ mark

/-- The first of the fields, in their order, that has no usable value. -/
def Settings.fault? (s : Settings) : Option SettingsError :=
  if isBlankText s.workerId then some (.invalidValue "worker_id" "must not be empty")
  else if s.lockTimeoutMs = 0 then
    some (.invalidValue "default_lock_timeout_ms" "must be greater than zero")
  else if s.sweepIntervalMs = 0 then
    some (.invalidValue "sweep_interval_ms" "must be greater than zero")
  else if s.maxConcurrent = 0 then
    some (.invalidValue "max_concurrent_processing" "must be greater than zero")
  else none

def Settings.validate (s : Settings) : Except SettingsError Settings :=
  match s.fault? with
  | some error => .error error
  | none => .ok s

def Settings.lockTimeout (s : Settings) : Span := .ofMillis s.lockTimeoutMs

def Settings.sweepInterval (s : Settings) : Span := .ofMillis s.sweepIntervalMs

def Settings.retryDelay (s : Settings) : Span := .ofMillis s.retryDelayMs

/-- Sets the default lock timeout, which is kept in whole milliseconds and must be at least one. -/
def Settings.setLockTimeout (s : Settings) (timeout : Span) : Except SettingsError Settings :=
  if timeout.millisWord = 0 then
    .error (.invalidValue "default_lock_timeout_ms" "must be greater than zero")
  else .ok { s with lockTimeoutMs := timeout.millisWord }

end TaskLeasing
