import TaskLeasing.Failure
import TaskLeasing.Settings
import TaskLeasing.Watchdog

namespace TaskLeasing

/-- What the delivery of a response is refused for. -/
inductive ResponseError
  | notFound (task : String)
  | protocolMismatch (task key : String)
  | noRegistration (key : String)
  | processing (error : ProcessorError)
  | engine (error : EngineError)
  | conversion (reason : String)

def ResponseError.message : ResponseError → String
  | .notFound task => "No locked external task with correlation id " ++ task
  | .protocolMismatch task key =>
    "Correlation id " ++ task ++ " belongs to sync registration " ++ key
  | .noRegistration key => "No registration for " ++ key
  | .processing error => error.display
  | .engine error => "Workflow engine error: " ++ error.message
  | .conversion reason => "Failed to convert async payload: " ++ reason

/-- A processor's error passes through as it is; other errors that the response met are named with
what they were met in. -/
def ResponseError.messages (error : ResponseError) : List String :=
  match error with
  | .processing inner => inner.messages
  | .engine inner => error.message :: inner.messages
  | .conversion reason => [error.message, reason]
  | _ => [error.message]

/-- Any error of the library, named with the part that raised it. -/
inductive Fault
  | settings (error : SettingsError)
  | registration (error : RegistrationError)
  | engine (error : EngineError)
  | response (error : ResponseError)
  | watchdog (error : WatchdogError)

def Fault.message : Fault → String
  | .settings error => "Configuration error: " ++ error.message
  | .registration error => "Registration error: " ++ error.message
  | .engine error => "Engine error: " ++ error.message
  | .response error => "Async input error: " ++ error.message
  | .watchdog error => "Watchdog error: " ++ error.message

def Fault.messages (fault : Fault) : List String :=
  fault.message :: match fault with
    | .settings error => error.messages
    | .registration error => [error.message]
    | .engine error => error.messages
    | .response error => error.messages
    | .watchdog error => error.messages

end TaskLeasing
