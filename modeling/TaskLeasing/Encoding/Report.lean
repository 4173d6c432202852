import TaskLeasing.Encoding.Fields
import TaskLeasing.Outcome
import TaskLeasing.Retry
import TaskLeasing.Settings
import TaskLeasing.Watchdog

namespace TaskLeasing

def outcomeNames : List (String × Outcome) :=
  [("completed", .completed), ("business_error", .businessError), ("retry_scheduled", .retryScheduled),
    ("incident", .incident), ("awaiting_response", .awaitingResponse)]

def Outcome.encode (outcome : Outcome) : Json := .text outcome.text

def Outcome.decode? (value : Json) : Option Outcome := value.choice? outcomeNames

def verdictNames : List (String × Verdict) :=
  [("fired", .fired), ("task_gone", .taskGone), ("released", .released), ("stale", .stale)]

def Verdict.encode (verdict : Verdict) : Json := .text verdict.text

def Verdict.decode? (value : Json) : Option Verdict := value.choice? verdictNames

def RetryDecision.encode (decision : RetryDecision) : Json :=
  .ofFields [("attempt", .ofWord32 decision.attempt), ("retries_left", .ofWord32 decision.retriesLeft),
    ("delay", decision.delay.encode)]

def RetryDecision.decode? (value : Json) : Option RetryDecision :=
  match value.record? ["attempt", "retries_left", "delay"] with
  | some [attempt, retriesLeft, delay] => do
    some ⟨← required Json.word32? attempt, ← required Json.word32? retriesLeft,
      ← required Span.decode? delay⟩
  | _ => none

def Counters.encode (c : Counters) : Json :=
  .ofFields [("tasks_leased", .ofWord64 c.tasksLeased), ("tasks_completed", .ofWord64 c.tasksCompleted),
    ("business_errors", .ofWord64 c.businessErrors), ("retries_scheduled", .ofWord64 c.retriesScheduled),
    ("incidents_raised", .ofWord64 c.incidentsRaised),
    ("async_requests_sent", .ofWord64 c.asyncRequestsSent),
    ("async_responses_handled", .ofWord64 c.asyncResponsesHandled),
    ("watchdogs_fired", .ofWord64 c.watchdogsFired), ("watchdogs_skipped", .ofWord64 c.watchdogsSkipped),
    ("lease_failures", .ofWord64 c.leaseFailures)]

def Counters.decode? (value : Json) : Option Counters :=
  match value.record? ["tasks_leased", "tasks_completed", "business_errors", "retries_scheduled",
      "incidents_raised", "async_requests_sent", "async_responses_handled", "watchdogs_fired",
      "watchdogs_skipped", "lease_failures"] with
  | some [leased, completed, business, retries, incidents, sent, handled, fired, skipped, failures] => do
    some ⟨← required Json.word64? leased, ← required Json.word64? completed,
      ← required Json.word64? business, ← required Json.word64? retries,
      ← required Json.word64? incidents, ← required Json.word64? sent, ← required Json.word64? handled,
      ← required Json.word64? fired, ← required Json.word64? skipped, ← required Json.word64? failures⟩
  | _ => none

/-- The names of the settings, in the order of their record. -/
def settingNames : List String :=
  ["worker_id", "default_lock_timeout_ms", "sweep_interval_ms", "sweep_on_startup",
    "max_concurrent_processing", "lease_per_definition_key", "default_retry_delay_ms",
    "default_response_timeout_message"]

def Settings.encode (s : Settings) : Json :=
  .ofFields [("worker_id", .text s.workerId), ("default_lock_timeout_ms", .ofWord64 s.lockTimeoutMs),
    ("sweep_interval_ms", .ofWord64 s.sweepIntervalMs), ("sweep_on_startup", .bool s.sweepOnStartup),
    ("max_concurrent_processing", .ofWord64 s.maxConcurrent),
    ("lease_per_definition_key", .bool s.leasePerDefinition),
    ("default_retry_delay_ms", .ofWord64 s.retryDelayMs),
    ("default_response_timeout_message", .text s.timeoutMessage)]

/-- A field that takes a default where it is missing. -/
def withDefault {α : Type} (default : α) (read : Json → Option α) (field : Option Json) : Option α :=
  field.elim (some default) read

/-- Reads settings over defaults: by name from an object, or from a list that may break off early. -/
def Settings.decode? (defaults : Settings) (value : Json) : Option Settings :=
  let fields : Option (List (Option Json)) := match value with
    | .object fields => some (settingNames.map fun name => lookupField name fields)
    | .list items =>
      if items.length ≤ settingNames.length then
        some (items.map some ++ List.replicate (settingNames.length - items.length) none)
      else none
    | _ => none
  match fields with
  | some [workerId, lock, sweep, onStartup, concurrent, perDefinition, retry, message] => do
    some ⟨← withDefault defaults.workerId Json.text? workerId,
      ← withDefault defaults.lockTimeoutMs Json.word64? lock,
      ← withDefault defaults.sweepIntervalMs Json.word64? sweep,
      ← withDefault defaults.sweepOnStartup Json.bool? onStartup,
      ← withDefault defaults.maxConcurrent Json.word64? concurrent,
      ← withDefault defaults.leasePerDefinition Json.bool? perDefinition,
      ← withDefault defaults.retryDelayMs Json.word64? retry,
      ← withDefault defaults.timeoutMessage Json.text? message⟩
  | _ => none

end TaskLeasing
