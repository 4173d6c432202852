namespace TaskLeasing

/-- What came of processing a leased task. -/
inductive Outcome
  | completed
  | businessError
  | retryScheduled
  | incident
  | awaitingResponse
deriving DecidableEq

def Outcome.text : Outcome → String
  | .completed => "completed"
  | .businessError => "business_error"
  | .retryScheduled => "retry_scheduled"
  | .incident => "incident"
  | .awaitingResponse => "awaiting_response"

/-- What a dispatcher counts. Each counter is a word and starts over after its greatest value. -/
structure Counters where
  tasksLeased : UInt64
  tasksCompleted : UInt64
  businessErrors : UInt64
  retriesScheduled : UInt64
  incidentsRaised : UInt64
  asyncRequestsSent : UInt64
  asyncResponsesHandled : UInt64
  watchdogsFired : UInt64
  watchdogsSkipped : UInt64
  leaseFailures : UInt64
deriving DecidableEq

def Counters.zero : Counters := ⟨0, 0, 0, 0, 0, 0, 0, 0, 0, 0⟩

def Counters.countOutcome (c : Counters) : Outcome → Counters
  | .completed => { c with tasksCompleted := c.tasksCompleted + 1 }
  | .businessError => { c with businessErrors := c.businessErrors + 1 }
  | .retryScheduled => { c with retriesScheduled := c.retriesScheduled + 1 }
  | .incident => { c with incidentsRaised := c.incidentsRaised + 1 }
  | .awaitingResponse => { c with asyncRequestsSent := c.asyncRequestsSent + 1 }

def Counters.countLeased (c : Counters) (tasks : UInt64) : Counters :=
  { c with tasksLeased := c.tasksLeased + tasks }

def Counters.countLeaseFailure (c : Counters) : Counters :=
  { c with leaseFailures := c.leaseFailures + 1 }

def Counters.countResponse (c : Counters) : Counters :=
  { c with asyncResponsesHandled := c.asyncResponsesHandled + 1 }

def Counters.countWatchdog (c : Counters) (fired : Bool) : Counters :=
  if fired then { c with watchdogsFired := c.watchdogsFired + 1 }
  else { c with watchdogsSkipped := c.watchdogsSkipped + 1 }

/-- One number less another, zero where the other is greater. -/
def monus (a b : UInt64) : UInt64 := if a ≤ b then 0 else a - b

/-- Requests that were sent and neither answered nor timed out. -/
def Counters.asyncInFlight (c : Counters) : UInt64 :=
  monus (monus c.asyncRequestsSent c.asyncResponsesHandled) c.watchdogsFired

end TaskLeasing
