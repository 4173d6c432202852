import TaskLeasing.Time.Timestamp

namespace TaskLeasing

/-- What a call of the engine is refused for. -/
inductive EngineError
  | taskNotFound (task : String)
  | notOwner (task worker : String)
  | definitionNotFound (key : String)
  | executionNotFound (execution : String)
  | unavailable (reason : String)
  | internal (reason : String)
deriving DecidableEq

def EngineError.message : EngineError → String
  | .taskNotFound task => "External task not found: " ++ task
  | .notOwner task worker => "External task " ++ task ++ " is not locked by worker " ++ worker
  | .definitionNotFound key => "Process definition not found: " ++ key
  | .executionNotFound execution => "Execution not found: " ++ execution
  | .unavailable reason => "Workflow engine unavailable: " ++ reason
  | .internal reason => "Workflow engine error: " ++ reason

/-- An engine error came from nothing else. -/
def EngineError.messages (error : EngineError) : List String := [error.message]

/-- When a lock or a wait that starts now ends: at the start of the millisecond that the span leads
into. A span can be too long for the calendar, and so can its end. -/
def deadline (now : Instant) (span : Span) : Except EngineError Instant :=
  if Span.longest < span.nanos then
    .error (.internal
      "duration out of range: Source duration value is out of range for the target type")
  else match now.plus? span with
    | some t => .ok t.truncate
    | none => .error (.internal (span.display ++ " after " ++ now.display ++ " is out of range"))

end TaskLeasing
