import TaskLeasing.Engine.Error
import TaskLeasing.Task

namespace TaskLeasing

/-- An open task with what the engine keeps of it besides: the details of its last failure and its
place in the order of creation. -/
structure TaskRecord where
  task : ExternalTask
  errorDetails : Option String
  sequence : Nat
deriving DecidableEq

/-- The state of the engine. Instances, tasks, incidents and jobs stand in the order they were
created in. -/
structure Engine where
  available : Bool
  definitions : List ProcessDefinition
  instances : List ProcessInstance
  tasks : List TaskRecord
  incidents : List Incident
  jobs : List Job
  /-- Tasks whose next completion is refused, once. -/
  refusals : List String
  /-- The variables that ended tasks were completed with. -/
  completions : List (String × Variables)
  /-- The number of tasks created so far. -/
  sequence : Nat

def Engine.empty : Engine where
  available := true
  definitions := []
  instances := []
  tasks := []
  incidents := []
  jobs := []
  refusals := []
  completions := []
  sequence := 0

/-- Names that no instance, execution, task, job or incident of the engine has yet. They come from
outside, as the time does. -/
structure FreshNames where
  instanceId : String
  execution : String
  task : String
  job : String
  incident : String

/-- What a call of the engine gives: its state afterwards, the result, and the activities that
instances entered, in order. -/
structure Reply (α : Type) where
  engine : Engine
  result : Except EngineError α
  started : List ActivityStarted

def Engine.refuse {α : Type} (e : Engine) (error : EngineError) : Reply α := ⟨e, .error error, []⟩

def Engine.answer {α : Type} (e : Engine) (value : α) : Reply α := ⟨e, .ok value, []⟩

def Engine.definition? (e : Engine) (key : String) : Option ProcessDefinition :=
  e.definitions.find? fun d => d.key = key

def Engine.instance? (e : Engine) (id : String) : Option ProcessInstance :=
  e.instances.find? fun run => run.id = id

def Engine.record? (e : Engine) (task : String) : Option TaskRecord :=
  e.tasks.find? fun record => record.task.id = task

def Engine.modifyInstance (e : Engine) (id : String) (change : ProcessInstance → ProcessInstance) :
    Engine :=
  { e with instances := e.instances.map fun run => if run.id = id then change run else run }

def Engine.modifyRecord (e : Engine) (task : String) (change : TaskRecord → TaskRecord) : Engine :=
  { e with tasks := e.tasks.map fun record => if record.task.id = task then change record else record }

def Engine.removeTask (e : Engine) (task : String) : Engine :=
  { e with tasks := e.tasks.filter fun record => record.task.id ≠ task }

/-- Marks every incident of a task as resolved. -/
def Engine.resolveIncidents (e : Engine) (task : String) : Engine :=
  { e with incidents := e.incidents.map fun i => if i.task = task then { i with resolved := true } else i }

/-- Whether a task has an incident that is not resolved. -/
def Engine.hasOpenIncident (e : Engine) (task : String) : Bool :=
  e.incidents.any fun i => i.task = task ∧ ¬ i.resolved

/-- The record of an open task that a worker leased last. -/
def Engine.ownedRecord (e : Engine) (task worker : String) : Except EngineError TaskRecord :=
  match e.record? task with
  | none => .error (.taskNotFound task)
  | some record =>
    if record.task.worker = some worker then .ok record else .error (.notOwner task worker)

/-- An instance with the definition it runs by. -/
def Engine.running (e : Engine) (instanceId : String) :
    Except EngineError (ProcessInstance × ProcessDefinition) :=
  match e.instance? instanceId with
  | none => .error (.internal ("unknown instance " ++ instanceId))
  | some run => match e.definition? run.definitionKey with
    | none => .error (.definitionNotFound run.definitionKey)
    | some definition => .ok (run, definition)

/-- The topic of the external task that an activity of a definition stands for. -/
def Engine.topic? (e : Engine) (definitionKey activity : String) : Option String :=
  ((e.definition? definitionKey).bind fun d => d.find? activity).bind Activity.externalTopic

/-- The open incidents of an instance. -/
def Engine.openIncidents (e : Engine) (instanceId : String) : List Incident :=
  e.incidents.filter fun i => i.instanceId = instanceId ∧ ¬ i.resolved

/-- The open task of an instance. -/
def Engine.taskOf (e : Engine) (instanceId : String) : Option ExternalTask :=
  (e.tasks.find? fun record => record.task.instanceId = instanceId).map TaskRecord.task

/-- The variables that a task was completed with, if it was. -/
def Engine.completionOf? (e : Engine) (task : String) : Option Variables :=
  (e.completions.find? fun done => done.1 = task).map Prod.snd

/-- The jobs by the time they are due, jobs of one time in the order of scheduling. -/
def Engine.jobsByDue (e : Engine) : List Job :=
  e.jobs.mergeSort fun a b => a.due ≤ b.due

def Engine.markExecuted (e : Engine) (job : String) : Engine :=
  { e with jobs := e.jobs.map fun j => if j.id = job then { j with executed := true } else j }

end TaskLeasing
