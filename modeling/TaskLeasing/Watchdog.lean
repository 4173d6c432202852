import TaskLeasing.Registration
import TaskLeasing.Engine.Error

namespace TaskLeasing

/-- A watch over the response to a task: the task and the expiry of the lock it had when its request
was sent. -/
structure Watchdog where
  task : String
  lockExpiry : Instant
deriving DecidableEq

/-- The payload that a watchdog's job carries: the task, the separator, and the expiry in whole
milliseconds from the epoch. -/
def Watchdog.payload (watchdog : Watchdog) : String :=
  watchdog.task ++ String.singleton keySeparator ++
    String.ofList (Numeral.signed watchdog.lockExpiry.millis)

/-- What stands before the last separator and what stands after it. -/
def splitAtLast (separator : Char) (cs : List Char) : Option (List Char × List Char) :=
  match cs with
  | [] => none
  | c :: rest => match splitAtLast separator rest with
    | some (front, back) => some (c :: front, back)
    | none => if c = separator then some ([], rest) else none

/-- Reads a payload: a task that is not empty, the last separator, and an integer of milliseconds
within the calendar. -/
def Watchdog.ofPayload? (payload : String) : Option Watchdog := do
  let (task, millis) ← splitAtLast keySeparator payload.toList
  if task.isEmpty then none
  else
    let expiry ← (← Numeral.int64? millis) |> Instant.ofMillis?
    some ⟨String.ofList task, expiry⟩

/-- Whether the lock a task has now is the one that is watched, to the millisecond. -/
def Watchdog.guards (watchdog : Watchdog) (current : Instant) : Bool :=
  current.millis = watchdog.lockExpiry.millis

/-- What a watchdog found when it ran. -/
inductive Verdict
  | fired
  | taskGone
  | released
  | stale
deriving DecidableEq

def Verdict.text : Verdict → String
  | .fired => "fired"
  | .taskGone => "task_gone"
  | .released => "released"
  | .stale => "stale"

inductive WatchdogError
  | malformed (payload : String)
  | engine (error : EngineError)
deriving DecidableEq

def WatchdogError.message : WatchdogError → String
  | .malformed payload => "Malformed watchdog payload '" ++ payload ++ "'"
  | .engine error => error.message

/-- An engine error passes through as it is. -/
def WatchdogError.messages : WatchdogError → List String
  | .malformed payload => [(WatchdogError.malformed payload).message]
  | .engine error => error.messages

/-- The type of the jobs that watch over responses. -/
def watchdogJobType : String := "async-response-timeout"

end TaskLeasing
