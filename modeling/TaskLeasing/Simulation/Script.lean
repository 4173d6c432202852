import TaskLeasing.System.Step

namespace TaskLeasing

/-- A time given as such, or counted in milliseconds from now. -/
inductive DueTime
  | instant (time : Instant)
  | inMillis (millis : Int)
deriving DecidableEq

/-- Steps that speak to the engine. Tasks, instances and executions go by the names they are shown
with. -/
inductive EngineStep
  /-- A definition to deploy, unless it could not be read. -/
  | deploy (definition : Option ProcessDefinition)
  | start (definitionKey : String) (businessKey : Option String) (vars : Variables)
  | fetch (request : LeaseRequest)
  | complete (task worker : String) (vars : Variables)
  | businessError (task worker code message : String) (vars : Option Variables)
  | failure (task worker : String) (report : FailureReport)
  | findTask (task : String)
  | taskOfInstance (instanceId : String)
  | findInstance (instanceId : String)
  | setVariables (execution : String) (vars : Variables)
  | errorDetails (task : String)
  | openIncidents (instanceId : String)
  | listJobs
  | scheduleJob (type configuration : String) (due : DueTime)
  | setHandler (type : String) (fails : Bool)
  | topicOf (definitionKey activity : String)
  | refuseNextCompletion (task : String)
  | setAvailable (available : Bool)
  | snapshot
  | describeEngine

/-- Steps that a scripted processor takes while it runs. -/
inductive SideStep
  | engine (step : EngineStep)
  | respond (task : String) (input : Json)
  | setWorkerId (worker : String)

/-- How a scripted call ends. A success carries what any kind of processor may return. -/
inductive Ending
  | success (vars : Variables) (due : Option DueTime) (result : Option Json)
  | failure (error : ProcessorError)
  | panic (reason : String)

/-- One call of a scripted processor: what it does, how long it waits, and how it ends. -/
structure ScriptEntry where
  sides : List SideStep
  sleep : UInt64
  ending : Ending

def ScriptEntry.plain : ScriptEntry := ⟨[], 0, .success .empty none none⟩

/-- A processor that plays entries one call after another and repeats the last. -/
structure Script where
  key : RegistrationKey
  kind : CallKind
  entries : List ScriptEntry
  calls : Nat

/-- The entry of a call, counted from one. -/
def Script.entry (script : Script) (call : Nat) : ScriptEntry :=
  script.entries.getD (min call script.entries.length - 1) .plain

/-- The types that a response can be asked for in. -/
inductive ResponseType
  | integer
  | bool
  | texts
  | text
deriving DecidableEq

/-- The steps of a scenario. -/
inductive Step
  | engine (step : EngineStep)
  | advance (millis : UInt64)
  | batch (steps : List Step)
  | commit
  | waitIdle (timeout : UInt64)
  | dropDispatcher
  | attach
  | register (definitionKey topic : String) (lockTimeout : Option Span) (vars : VariableScope)
      (contract : Contract) (scripts : List (CallKind × List ScriptEntry))
  | dispatch (key : RegistrationKey)
  | sweep
  | process (task : String) (topic : Option String) (retries : Option (Option UInt32))
  | respond (task : String) (input : Json)
  | respondTyped (task : String) (input : Json) (type : ResponseType)
  | fireWatchdog (payload : String) (task : Option String)
  | setWorkerId (worker : String)
  | workerId
  | setLockTimeout (timeout : Span)
  | listSettings
  | listRegistrations
  | describeDispatcher
  | startSweeper
  | sweeperRunning
  | stopSweeper
  | dropSweeper

/-- All that can be seen of a system at one time. -/
structure Snapshot where
  elapsed : Nat
  engine : Engine
  counters : Option Counters
  inFlight : Nat
  pending : Nat

/-- What a step gives. -/
inductive StepResult
  | nothing
  | unreadable
  | noDispatcher
  | flag (value : Bool)
  | number (value : Nat)
  | text (value : String)
  | textOrNone (value : Option String)
  | leased (tasks : List LeasedTask)
  | task (task : Option ExternalTask)
  | run (run : Option ProcessInstance)
  | incidents (incidents : List Incident)
  | jobs (jobs : List Job)
  | snapshot (snapshot : Snapshot)
  | settings (settings : Settings)
  | registration (registration : Registration)
  | registrations (registrations : List Registration)
  | outcome (outcome : Outcome)
  | verdict (verdict : Verdict)
  | response (value : Json)
  | engineError (error : EngineError)
  | fault (fault : Fault)
  | responseError (error : ResponseError)
  | watchdogError (error : WatchdogError)
  | results (results : List StepResult)

instance : Inhabited StepResult := ⟨.nothing⟩

/-- What a scenario shows of what happens: what can be observed of the system, calls of processors
with their number, and what the steps of scripts gave. -/
inductive TraceEvent
  | noted (note : Note)
  | called (call : ProcessorCall) (count : Nat)
  | side (result : StepResult)

structure TraceEntry where
  elapsed : Nat
  event : TraceEvent

end TaskLeasing
