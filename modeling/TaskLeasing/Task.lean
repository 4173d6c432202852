import TaskLeasing.Time.Instant
import TaskLeasing.Process

namespace TaskLeasing

/-- An open piece of work that an instance waits for. The worker is the last one that leased it. -/
structure ExternalTask where
  id : String
  definitionKey : String
  topic : String
  instanceId : String
  businessKey : Option String
  activity : String
  execution : String
  worker : Option String
  lockExpiry : Option Instant
  retries : Option UInt32
  errorMessage : Option String
deriving DecidableEq

def ExternalTask.isLocked (task : ExternalTask) : Bool := task.worker.isSome

/-- A task as it is handed to the worker that leased it, with the variables of its instance at that
moment. -/
structure LeasedTask where
  id : String
  definitionKey : String
  topic : String
  instanceId : String
  businessKey : Option String
  activity : String
  execution : String
  lockExpiry : Instant
  vars : Variables
  retries : Option UInt32

/-- What a processor learns of the task it works on. -/
structure TaskContext where
  task : String
  definitionKey : String
  topic : String
  instanceId : String
  businessKey : Option String
  activity : String
  execution : String
  vars : Variables
  retries : Option UInt32

/-- A task without recorded retries has not failed yet. -/
def TaskContext.isFirstAttempt (context : TaskContext) : Bool := context.retries.isNone

def LeasedTask.context (task : LeasedTask) : TaskContext where
  task := task.id
  definitionKey := task.definitionKey
  topic := task.topic
  instanceId := task.instanceId
  businessKey := task.businessKey
  activity := task.activity
  execution := task.execution
  vars := task.vars
  retries := task.retries

/-- What the processor of a response learns of the task it answers. -/
structure ResponseContext where
  task : String
  instanceId : String
  businessKey : Option String
  activity : String
  execution : String
  retries : Option UInt32
deriving DecidableEq

def ExternalTask.responseContext (task : ExternalTask) : ResponseContext where
  task := task.id
  instanceId := task.instanceId
  businessKey := task.businessKey
  activity := task.activity
  execution := task.execution
  retries := task.retries

/-- What a worker asks for when it leases tasks. -/
structure LeaseRequest where
  maxTasks : Nat
  worker : String
  topic : String
  lock : Span
  vars : VariableScope
  definitionKey : Option String
deriving DecidableEq

/-- What a worker reports of an attempt that failed: the retries that remain and the wait before the
next. -/
structure FailureReport where
  message : String
  details : String
  retries : UInt32
  delay : Span
deriving DecidableEq

/-- A report that leaves no retries. -/
def FailureReport.terminal (message details : String) : FailureReport := ⟨message, details, 0, .zero⟩

/-- A failure that waits for someone to look into it. -/
structure Incident where
  id : String
  instanceId : String
  task : String
  activity : String
  message : String
  details : String
  createdAt : Instant
  resolved : Bool
deriving DecidableEq

/-- What a job hands to the handler of its type. -/
structure JobPayload where
  handlerType : String
  configuration : String
deriving DecidableEq

structure Job where
  id : String
  due : Instant
  payload : JobPayload
  executed : Bool
deriving DecidableEq

end TaskLeasing
