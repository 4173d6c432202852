import TaskLeasing.System.Leasing

namespace TaskLeasing

/-- How far something got: it ended, or it goes on when a processor answers. -/
inductive Progress (α : Type)
  | finished (value : α)
  | calling (call : ProcessorCall)

/-- Reports a failed attempt and tells whether the engine accepted the report. -/
def System.report (s : System) (task worker : String) (report : FailureReport) : Bool × System :=
  match s.ask (.failure task worker report) with
  | (.ok _, s) => (true, s)
  | (.error error, s) => (false, s.logError "handle_failure" error.message task)

/-- Counts and logs the outcome of a leased task. -/
def System.conclude (s : System) (task : LeasedTask) (outcome : Outcome) : Outcome × System :=
  let s := { s with counters := s.counters.countOutcome outcome }
  (outcome, s.logTask "process" task outcome.text)

/-- Reports a failure that leaves no retries. -/
def System.raiseIncident (s : System) (task worker message details : String) : System :=
  (s.report task worker (.terminal message details)).2

/-- An engine error as the end of an attempt. -/
def System.raiseEngineIncident (s : System) (task worker : String) (error : EngineError) : System :=
  s.raiseIncident task worker error.message (incidentDetails error.messages)

/-- The delays between attempts after a failure: its own, or else the worker's. -/
def System.backoff (s : System) (failure : RetryableFailure) : List Span :=
  if failure.delays.isEmpty then [s.settings.retryDelay] else failure.delays

/-- What the error of a processor comes to. A business error is delivered to the engine, a retryable
failure is reported with the retries it has left and is leased again after its delay, and any other
failure, or one that the engine does not accept, ends in an incident. -/
def System.settleError (s : System) (task : LeasedTask) (registration : Registration) (worker : String)
    (error : ProcessorError) : Outcome × System :=
  match error with
  | .business business =>
    match s.ask (.businessError task.id worker business.code business.message business.vars) with
    | (.ok _, s) => (.businessError, s)
    | (.error refusal, s) => (.incident, s.raiseEngineIncident task.id worker refusal)
  | .retryable failure =>
    let decision := nextRetry failure.maxAttempts task.retries (s.backoff failure)
    match s.report task.id worker
        ⟨failure.message, error.incidentDetails, decision.retriesLeft, decision.delay⟩ with
    | (false, s) => (.incident, s)
    | (true, s) =>
      if decision.willRetry then
        (.retryScheduled, s.afterCommit "retry" (.deferRetry registration decision.delay))
      else (.incident, s)
  | .failure _ => (.incident, s.raiseIncident task.id worker error.message error.incidentDetails)

/-- When the response to a request is due: at the time the request named, or the registration's
timeout from now, if there is either. -/
def System.responseDue? (s : System) (timeout : Option Span) (named : Option Instant) :
    Option Instant :=
  match named with
  | some due => some due
  | none => timeout.bind fun timeout =>
    if Span.longest < timeout.nanos then none else s.now.plus? timeout

/-- Schedules the watchdog of a request that was sent, if its response is due at some time. -/
def System.armWatchdog (s : System) (task : LeasedTask) (timeout : Option Span)
    (named : Option Instant) : System :=
  match s.responseDue? timeout named with
  | none => s
  | some due =>
    let watchdog : Watchdog := ⟨task.id, task.lockExpiry⟩
    match s.ask (.scheduleJob due ⟨watchdogJobType, watchdog.payload⟩) with
    | (.ok job, s) => s.note (.jobScheduled job)
    | (.error error, s) => s.logError "timeout_watchdog" error.message task.id

/-- Calls a processor. -/
def System.callProcessor (s : System) (action : Option Nat) (registration : Registration)
    (worker : String) (subject : CallSubject) : ProcessorCall × System :=
  let call : ProcessorCall := ⟨s.callCount + 1, action, registration, worker, subject⟩
  (call, { s with callCount := call.number, calls := s.calls ++ [call] }.note (.called call))

/-- Starts on a leased task: its registration's processor is called, or an incident is raised if it
has none. -/
def System.process (s : System) (action : Option Nat) (task : LeasedTask) : Progress Outcome × System :=
  let worker := s.settings.workerId
  let key : RegistrationKey := ⟨task.definitionKey, task.topic⟩
  match s.registry.lookup key with
  | none =>
    let message := "No processor registered for " ++ key.text
    let (outcome, s) := (s.raiseIncident task.id worker message message).conclude task .incident
    (.finished outcome, s)
  | some registration =>
    let subject : CallSubject := match registration.contract with
      | .sync => .process task
      | .async .. => .request task
    let (call, s) := s.callProcessor action registration worker subject
    (.calling call, s)

/-- Goes on with a leased task when its processor has ended. -/
def System.endProcess (s : System) (call : ProcessorCall) (task : LeasedTask)
    (attempt : Attempt Variables) : Outcome × System :=
  let (outcome, s) : Outcome × System := match attempt.result with
    | .ok vars => match s.ask (.complete task.id call.worker vars) with
      | (.ok _, s) => (.completed, s)
      | (.error refusal, s) => (.incident, s.raiseEngineIncident task.id call.worker refusal)
    | .error error => s.settleError task call.registration call.worker error
  s.conclude task outcome

/-- Goes on with a leased task when its request has been sent, or has failed. -/
def System.endRequest (s : System) (call : ProcessorCall) (task : LeasedTask)
    (attempt : Attempt (Option Instant)) : Outcome × System :=
  let timeout := match call.registration.contract with
    | .async timeout _ => timeout
    | .sync => none
  let (outcome, s) : Outcome × System := match attempt.result with
    | .ok named => (.awaitingResponse, s.armWatchdog task timeout named)
    | .error error => s.settleError task call.registration call.worker error
  s.conclude task outcome

end TaskLeasing
