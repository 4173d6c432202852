import TaskLeasing.Engine.State

namespace TaskLeasing

/-- Stores a definition, in place of one of the same key. -/
def Engine.deploy (e : Engine) (definition : ProcessDefinition) : Engine :=
  if (e.definition? definition.key).isSome then
    { e with definitions := e.definitions.map fun d => if d.key = definition.key then definition else d }
  else { e with definitions := e.definitions ++ [definition] }

def ProcessInstance.enter (run : ProcessInstance) (activity : String) : ProcessInstance :=
  { run with currentActivity := some activity, history := run.history ++ [activity] }

/-- An instance that ran past its last activity. -/
def ProcessInstance.finish (run : ProcessInstance) : ProcessInstance :=
  { run with
    currentActivity := none
    state := if run.state = .active then .completed else run.state }

/-- The task an instance waits for in an activity bound to a topic. -/
def ProcessInstance.openTask (run : ProcessInstance) (definitionKey activity topic id : String) :
    ExternalTask where
  id := id
  definitionKey := definitionKey
  topic := topic
  instanceId := run.id
  businessKey := run.businessKey
  activity := activity
  execution := run.execution
  worker := none
  lockExpiry := none
  retries := none
  errorMessage := none

def Engine.addTask (e : Engine) (task : ExternalTask) : Engine :=
  { e with sequence := e.sequence + 1, tasks := e.tasks ++ [⟨task, none, e.sequence + 1⟩] }

def Engine.addInstance (e : Engine) (run : ProcessInstance) : Engine :=
  { e with instances := e.instances ++ [run] }

def Engine.addIncident (e : Engine) (incident : Incident) : Engine :=
  { e with incidents := e.incidents ++ [incident] }

def Engine.addJob (e : Engine) (job : Job) : Engine := { e with jobs := e.jobs ++ [job] }

/-- Keeps the variables a task was completed with. -/
def Engine.recordCompletion (e : Engine) (task : String) (vars : Variables) : Engine :=
  { e with completions := e.completions.filter (fun done => done.1 ≠ task) ++ [(task, vars)] }

/-- Takes back the refusal of a task's next completion. -/
def Engine.useRefusal (e : Engine) (task : String) : Engine :=
  { e with refusals := e.refusals.filter (· ≠ task) }

/-- Lets an instance enter activities one after another, up to the first one bound to a topic, for
which a task is opened. Past the last activity the instance ends. -/
def Engine.walk (e : Engine) (run : ProcessInstance) (definitionKey freshTask : String) :
    List Activity → Engine × List ActivityStarted
  | [] => (e.modifyInstance run.id ProcessInstance.finish, [])
  | activity :: rest =>
    let e := e.modifyInstance run.id fun run => run.enter activity.id
    let event : ActivityStarted := ⟨definitionKey, activity.id, run.id⟩
    match activity.externalTopic with
    | some topic => (e.addTask (run.openTask definitionKey activity.id topic freshTask), [event])
    | none =>
      let (e, events) := e.walk run definitionKey freshTask rest
      (e, event :: events)

/-- Lets an instance go on from a place in its definition. -/
def Engine.advance (e : Engine) (instanceId : String) (place : Nat) (freshTask : String) : Reply Unit :=
  match e.running instanceId with
  | .error error => e.refuse error
  | .ok (run, definition) =>
    let (e, events) := e.walk run definition.key freshTask (definition.activities.drop place)
    ⟨e, .ok (), events⟩

/-- The refusal of every call while the engine is switched off. -/
def Engine.switchedOff : EngineError := .unavailable "in-memory engine switched off"

def Engine.start (e : Engine) (fresh : FreshNames) (definitionKey : String)
    (businessKey : Option String) (vars : Variables) : Reply String :=
  if ¬ e.available then e.refuse Engine.switchedOff
  else if (e.definition? definitionKey).isNone then e.refuse (.definitionNotFound definitionKey)
  else
    let run : ProcessInstance :=
      ⟨fresh.instanceId, definitionKey, businessKey, fresh.execution, vars, none, .active, [], []⟩
    let reply := (e.addInstance run).advance run.id 0 fresh.task
    ⟨reply.engine, reply.result.map fun _ => run.id, reply.started⟩

/-- Whether a task can be leased by a request: it has the topic, and the definition key if one is
given, is not out of retries, and is not locked beyond now. -/
def TaskRecord.isLeasable (record : TaskRecord) (request : LeaseRequest) (now : Instant) : Bool :=
  record.task.topic = request.topic ∧
    request.definitionKey.all (· = record.task.definitionKey) ∧
    record.task.retries ≠ some 0 ∧
    record.task.lockExpiry.all (· ≤ now)

def TaskRecord.lock (record : TaskRecord) (worker : String) (expiry : Instant) : TaskRecord :=
  { record with task := { record.task with worker := some worker, lockExpiry := some expiry } }

def ExternalTask.leased (task : ExternalTask) (expiry : Instant) (vars : Variables) :
    LeasedTask where
  id := task.id
  definitionKey := task.definitionKey
  topic := task.topic
  instanceId := task.instanceId
  businessKey := task.businessKey
  activity := task.activity
  execution := task.execution
  lockExpiry := expiry
  vars := vars
  retries := task.retries

/-- Leases the earliest created of the tasks that a request fits, as many as it asks for. -/
def Engine.lease (e : Engine) (now : Instant) (request : LeaseRequest) : Reply (List LeasedTask) :=
  if ¬ e.available then e.refuse Engine.switchedOff
  else match deadline now request.lock with
    | .error error => e.refuse error
    | .ok expiry =>
      let chosen := (e.tasks.filter fun record => record.isLeasable request now).take request.maxTasks
      let locked := chosen.foldl
        (fun e record => e.modifyRecord record.task.id fun r => r.lock request.worker expiry) e
      locked.answer (chosen.map fun record => record.task.leased expiry
        (((e.instance? record.task.instanceId).map fun run => request.vars.select run.vars).getD
          .empty))

/-- Ends a task with variables for its instance, which goes on after the task's activity. -/
def Engine.complete (e : Engine) (freshTask task worker : String) (vars : Variables) : Reply Unit :=
  if ¬ e.available then e.refuse Engine.switchedOff
  else match e.ownedRecord task worker with
    | .error error => e.refuse error
    | .ok record =>
      if task ∈ e.refusals then
        (e.useRefusal task).refuse (.unavailable ("completion of " ++ task ++ " rejected"))
      else
        let e := ((e.removeTask task).resolveIncidents task).recordCompletion task vars
        match e.running record.task.instanceId with
        | .error error => e.refuse error
        | .ok (run, definition) =>
          let e := e.modifyInstance run.id fun run =>
            { run with vars := run.vars.extend vars }
          e.advance run.id (definition.after record.task.activity) freshTask

/-- Ends a task with a business error. The instance goes on at the activity's error boundary; without
one it ends with the error. -/
def Engine.raiseBusinessError (e : Engine) (freshTask task worker code : String)
    (vars : Option Variables) : Reply Unit :=
  if ¬ e.available then e.refuse Engine.switchedOff
  else match e.ownedRecord task worker with
    | .error error => e.refuse error
    | .ok record =>
      let e := (e.removeTask task).resolveIncidents task
      match e.running record.task.instanceId with
      | .error error => e.refuse error
      | .ok (run, definition) =>
        let e := e.modifyInstance run.id fun run =>
          { run with
            vars := vars.elim run.vars run.vars.extend
            businessErrors := run.businessErrors ++ [code] }
        match definition.boundary? record.task.activity with
        | some place => e.advance run.id place freshTask
        | none =>
          (e.modifyInstance run.id fun run =>
            { run with currentActivity := none, state := .endedByError code }).answer ()

/-- Records a failed attempt and holds the task back for the reported delay. Without retries an
incident is raised, unless one is open. -/
def Engine.reportFailure (e : Engine) (now : Instant) (freshIncident task worker : String)
    (report : FailureReport) : Reply Unit :=
  if ¬ e.available then e.refuse Engine.switchedOff
  else match deadline now report.delay with
    | .error error => e.refuse error
    | .ok expiry => match e.ownedRecord task worker with
      | .error error => e.refuse error
      | .ok record =>
        let e := e.modifyRecord task fun r =>
          { r with
            task := { r.task with
              retries := some report.retries
              errorMessage := some report.message
              lockExpiry := some expiry }
            errorDetails := some report.details }
        if report.retries = 0 ∧ ¬ e.hasOpenIncident task then
          (e.addIncident ⟨freshIncident, record.task.instanceId, task, record.task.activity,
            report.message, report.details, now, false⟩).answer ()
        else e.answer ()

def Engine.findTask (e : Engine) (task : String) : Reply (Option ExternalTask) :=
  if ¬ e.available then e.refuse Engine.switchedOff
  else e.answer ((e.record? task).map TaskRecord.task)

/-- Lays variables over those of the instance that has an execution. -/
def Engine.setVariables (e : Engine) (execution : String) (vars : Variables) : Reply Unit :=
  if ¬ e.available then e.refuse Engine.switchedOff
  else match e.instances.find? fun run => run.execution = execution with
    | none => e.refuse (.executionNotFound execution)
    | some run =>
      (e.modifyInstance run.id fun run =>
        { run with vars := run.vars.extend vars }).answer ()

def Engine.scheduleJob (e : Engine) (freshJob : String) (due : Instant) (payload : JobPayload) :
    Reply String :=
  if ¬ e.available then e.refuse Engine.switchedOff
  else (e.addJob ⟨freshJob, due, payload, false⟩).answer freshJob

/-- Makes the next completion of a task fail. -/
def Engine.refuseNextCompletion (e : Engine) (task : String) : Engine :=
  if task ∈ e.refusals then e else { e with refusals := e.refusals ++ [task] }

def Engine.setAvailable (e : Engine) (available : Bool) : Engine := { e with available := available }

end TaskLeasing
