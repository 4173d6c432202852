import TaskLeasing.Simulation.Conversion
import TaskLeasing.Simulation.Naming
import TaskLeasing.Simulation.Threads

namespace TaskLeasing

/-- What a thread of a simulation does next. -/
inductive Frame
  | step (step : Step)
  /-- A step of a script for the task at hand. -/
  | side (self : String) (step : SideStep)
  /-- Records what a side step gave. -/
  | tellSide
  /-- Goes on with a batch after a step of it. -/
  | batch (rest : List Step) (done : List StepResult)
  | typed (type : ResponseType)
  | start (action : Nat)
  | resume (action : Nat)
  | delay (action : Nat) (time : Span)
  | wake (action : Nat)
  | awaitJob (job : String)
  | runJob (job : String)
  /-- Plays the rest of a script's entry in a call. -/
  | play (call : ProcessorCall) (sides : List SideStep) (entry : ScriptEntry)
  | endCall (call : ProcessorCall) (ending : Ending)
  | pollIdle (deadline : Nat)
  | startSweeper (sweeper interval : Nat) (onStartup : Bool)
  | sweeper (sweeper interval : Nat)

/-- A system driven by scripts on virtual time. -/
structure Simulation where
  system : System
  /-- What the names that the system issues start with. -/
  mark : Char
  origin : Instant
  timeline : Timeline (List Frame)
  scripts : List Script
  /-- The tasks that fetch steps returned, the latest first. -/
  fetched : List LeasedTask
  /-- The sweeper that can be stopped, if one was started. -/
  handle : Option Nat
  sweepersStarted : Nat
  stopping : List Nat
  stopped : List Nat
  /-- What happened, the latest first. -/
  trace : List TraceEntry

def Simulation.tell (sim : Simulation) (event : TraceEvent) : Simulation :=
  { sim with trace := ⟨sim.timeline.elapsed, event⟩ :: sim.trace }

def Simulation.spawn (sim : Simulation) (frame : Frame) : Simulation :=
  { sim with timeline := sim.timeline.enqueue [frame] }

def Simulation.script? (sim : Simulation) (call : ProcessorCall) : Option Script :=
  sim.scripts.find? fun script =>
    script.key = call.registration.key ∧ script.kind = call.subject.kind

/-- Takes up what was observed of the system: it is shown, or becomes a thread of its own. -/
def Simulation.absorb (sim : Simulation) (note : Note) : Simulation :=
  match note with
  | .submitted action => sim.spawn (.start action)
  | .delayed action time => sim.spawn (.delay action time)
  | .granted action => sim.spawn (.resume action)
  | .jobScheduled job => sim.spawn (.awaitJob job)
  | .called call =>
    let count := ((sim.script? call).elim 0 Script.calls) + 1
    let sim := sim.tell (.called call count)
    { sim with scripts := sim.scripts.map fun script =>
        if script.key = call.registration.key ∧ script.kind = call.subject.kind then
          { script with calls := count }
        else script }
  | note => sim.tell (.noted note)

/-- Makes a move of the system. -/
def Simulation.move (sim : Simulation) (move : Move) : Consequence × Simulation :=
  let (consequence, system) := { sim.system with journal := [] }.step move
  let sim := system.journal.foldr (fun entry sim => sim.absorb entry.note) { sim with system := system }
  (consequence, sim)

def Simulation.passTo (sim : Simulation) (time : Nat) : Simulation :=
  let sim := { sim with timeline := sim.timeline.passTo time }
  let now := (Instant.ofNanos? (sim.origin.nanos + time * 1000000)).getD sim.origin
  (sim.move (.passTo now)).2

def Simulation.snapshot (sim : Simulation) : Snapshot where
  elapsed := sim.timeline.elapsed
  engine := sim.system.engine
  counters := if sim.system.released then none else some sim.system.counters
  inFlight := sim.system.host.inFlight
  pending := (sim.system.gate.elim 0 List.length)

def DueTime.instant? (due : DueTime) (now : Instant) : Option Instant :=
  match due with
  | .instant time => some time
  | .inMillis millis => Instant.ofNanos? (now.nanos + millis * 1000000)

/-- What comes of a move, as the value of a step; a call of a processor is played by its script. -/
def Simulation.follow (sim : Simulation) (consequence : Consequence) : Turn Frame StepResult :=
  match consequence with
  | .nothing => .go [] .nothing
  | .answered .done (.ok _) => .go [] .nothing
  | .answered .name (.ok name) => .go [] (.text name)
  | .answered .tasks (.ok tasks) => .go [] (.leased tasks)
  | .answered .task (.ok task) => .go [] (.task task)
  | .answered _ (.error error) => .go [] (.engineError error)
  | .registered (.ok registration) => .go [] (.registration registration)
  | .registered (.error fault) => .go [] (.fault fault)
  | .counted number => .go [] (.number number)
  | .dispatched (.ok number) => .go [] (.number number)
  | .dispatched (.error fault) => .go [] (.fault fault)
  | .processed outcome => .go [] (.outcome outcome)
  | .responded (.ok value) => .go [] (.response value)
  | .responded (.error error) => .go [] (.responseError error)
  | .checked (.ok verdict) => .go [] (.verdict verdict)
  | .checked (.error error) => .go [] (.watchdogError error)
  | .changed (.ok _) => .go [] .nothing
  | .changed (.error fault) => .go [] (.fault fault)
  | .calling call =>
    let entry := (sim.script? call).elim .plain fun script => script.entry script.calls
    .go [.play call entry.sides entry] .nothing

/-- Makes a move and goes on with what comes of it. -/
def Simulation.turn (sim : Simulation) (move : Move) : Turn Frame StepResult × Simulation :=
  let (consequence, sim) := sim.move move
  (sim.follow consequence, sim)

/-- The name that stands behind one that is shown. -/
def Simulation.nameFor (sim : Simulation) (shown : String) : String :=
  sim.system.engine.nameFor sim.mark shown

/-- The name that a step gives for a task: the one at hand, if there is one, or one that is shown. -/
def Simulation.taskFor (sim : Simulation) (self : Option String) (shown : String) : String :=
  match self with
  | some task => if shown = "$self" then task else sim.nameFor shown
  | none => sim.nameFor shown

/-- A step that speaks to the engine. -/
def Simulation.engineStep (sim : Simulation) (self : Option String) (step : EngineStep) :
    Turn Frame StepResult × Simulation :=
  let engine := sim.system.engine
  let give (value : StepResult) : Turn Frame StepResult × Simulation := (.go [] value, sim)
  let operate {kind : AnswerKind} (operation : Operation kind) : Turn Frame StepResult × Simulation :=
    sim.turn (.operate kind operation)
  match step with
  | .deploy none => give .unreadable
  | .deploy (some definition) => operate (.deploy definition)
  | .start definitionKey businessKey vars => operate (.start definitionKey businessKey vars)
  | .fetch request =>
    let (turn, sim) := operate (.lease request)
    match turn with
    | .go [] (.leased tasks) => (turn, { sim with fetched := tasks.reverse ++ sim.fetched })
    | _ => (turn, sim)
  | .complete task worker vars => operate (.complete (sim.taskFor self task) worker vars)
  | .businessError task worker code message vars =>
    operate (.businessError (sim.taskFor self task) worker code message vars)
  | .failure task worker report => operate (.failure (sim.taskFor self task) worker report)
  | .findTask task => operate (.findTask (sim.taskFor self task))
  | .taskOfInstance instanceId => give (.task (engine.taskOf (sim.nameFor instanceId)))
  | .findInstance instanceId => give (.run (engine.instance? (sim.nameFor instanceId)))
  | .setVariables execution vars => operate (.setVariables (sim.nameFor execution) vars)
  | .errorDetails task =>
    give (.textOrNone ((engine.record? (sim.taskFor self task)).bind TaskRecord.errorDetails))
  | .openIncidents instanceId => give (.incidents (engine.openIncidents (sim.nameFor instanceId)))
  | .listJobs => give (.jobs engine.jobsByDue)
  | .scheduleJob type configuration due =>
    operate (.scheduleJob ((due.instant? sim.system.now).getD sim.system.now) ⟨type, configuration⟩)
  | .setHandler type fails => sim.turn (.setHandler type fails)
  | .topicOf definitionKey activity => give (.textOrNone (engine.topic? definitionKey activity))
  | .refuseNextCompletion task => operate (.refuseNextCompletion (sim.taskFor self task))
  | .setAvailable available => operate (.setAvailable available)
  | .snapshot => give (.snapshot sim.snapshot)
  | .describeEngine => give (.text ("InMemoryWorkflowEngine \x7b definitions: " ++
      toString engine.definitions.length ++ ", instances: " ++ toString engine.instances.length ++
      ", tasks: " ++ toString engine.tasks.length ++ ", incidents: " ++
      toString engine.incidents.length ++ " \x7d"))

/-- Tells a sweeper to stop and wakes it for that. -/
def Simulation.stopSweeper (sim : Simulation) (id : Nat) : Simulation :=
  { sim with
    stopping := id :: sim.stopping
    timeline := sim.timeline.rouse fun frames => match frames with
      | .sweeper other _ :: _ => other = id
      | _ => false }

/-- A text with the first of its places for a task filled in. -/
def fillTask (task : List Char) : List Char → List Char
  | [] => []
  | c :: rest =>
    if "\x7btask\x7d".toList.isPrefixOf (c :: rest) then task ++ rest.drop 5
    else c :: fillTask task rest

/-- A step of a scenario. Once the dispatcher was dropped, steps that need it are refused. -/
def Simulation.scenarioStep (sim : Simulation) (step : Step) : Turn Frame StepResult × Simulation :=
  let give (value : StepResult) : Turn Frame StepResult × Simulation := (.go [] value, sim)
  let owned (turn : Unit → Turn Frame StepResult × Simulation) : Turn Frame StepResult × Simulation :=
    if sim.system.released then give .noDispatcher else turn ()
  match step with
  | .engine step => sim.engineStep none step
  | .advance millis => (.sleep millis.toNat [], sim)
  | .batch [] => give (.results [])
  | .batch (first :: rest) => (.go [.step first, .batch rest []] .nothing, sim)
  | .commit => sim.turn .commit
  | .waitIdle timeout => (.go [.pollIdle (sim.timeline.elapsed + timeout.toNat)] .nothing, sim)
  | .dropDispatcher => sim.turn .release
  | .attach => owned fun _ => sim.turn .attach
  | .register definitionKey topic lockTimeout vars contract scripts => owned fun _ =>
    let (consequence, sim) := sim.move (.register definitionKey topic lockTimeout vars contract)
    match consequence with
    | .registered (.ok entry) =>
      let scripts := scripts.map fun (kind, entries) => ⟨entry.key, kind, entries, 0⟩
      (sim.follow consequence, { sim with scripts := sim.scripts ++ scripts })
    | _ => (sim.follow consequence, sim)
  | .dispatch key => owned fun _ => sim.turn (.dispatch key)
  | .sweep => owned fun _ => sim.turn .sweep
  | .process task topic retries => owned fun _ =>
    match sim.fetched.find? fun leased => leased.id = sim.nameFor task with
    | none => give .nothing
    | some leased => sim.turn (.process { leased with
        topic := topic.getD leased.topic
        retries := retries.getD leased.retries })
  | .respond task input => owned fun _ => sim.turn (.respond (sim.nameFor task) input)
  | .respondTyped task input type => owned fun _ =>
    (.go [.step (.respond task input), .typed type] .nothing, sim)
  | .fireWatchdog payload task => owned fun _ =>
    let payload := task.elim payload fun task =>
      String.ofList (fillTask (sim.nameFor task).toList payload.toList)
    sim.turn (.fireWatchdog payload)
  | .setWorkerId worker => owned fun _ => sim.turn (.setWorkerId worker)
  | .workerId => owned fun _ => give (.text sim.system.settings.workerId)
  | .setLockTimeout timeout => owned fun _ => sim.turn (.setLockTimeout timeout)
  | .listSettings => owned fun _ => give (.settings sim.system.settings)
  | .listRegistrations => owned fun _ => give (.registrations sim.system.registry.entries)
  | .describeDispatcher => owned fun _ =>
    give (.text ("ExternalTaskDispatcher \x7b worker_id: " ++ quoted sim.system.settings.workerId ++
      ", registrations: " ++ toString sim.system.registry.size ++ " \x7d"))
  | .startSweeper => owned fun _ =>
    let id := sim.sweepersStarted
    let settings := sim.system.settings
    let sim := (sim.move .holdSweeper).2.spawn
      (.startSweeper id settings.sweepInterval.ticks settings.sweepOnStartup)
    let sim := sim.handle.elim sim sim.stopSweeper
    (.go [] .nothing, { sim with handle := some id, sweepersStarted := id + 1 })
  | .sweeperRunning => match sim.handle with
    | none => give .nothing
    | some id => give (.flag (id ∉ sim.stopped))
  | .stopSweeper => match sim.handle with
    | none => give .nothing
    | some id =>
      if id ∈ sim.stopped then (.go [] .nothing, { sim with handle := none })
      else (.settle [], { sim.stopSweeper id with handle := none })
  | .dropSweeper => match sim.handle with
    | none => give .nothing
    | some id => (.go [] .nothing, { sim.stopSweeper id with handle := none })

/-- The end of a call by its script. -/
def Simulation.endCall (sim : Simulation) (call : ProcessorCall) (ending : Ending) :
    Turn Frame StepResult × Simulation :=
  let end_ (kind : CallKind) (value : kind.Value) : Attempt kind.Value :=
    match ending with
    | .success .. => .returned value
    | .failure error => .failed error
    | .panic reason => .panicked reason
  let (vars, due, result) : Variables × Option DueTime × Option Json := match ending with
    | .success vars due result => (vars, due, result)
    | _ => (.empty, none, none)
  match call.subject with
  | .process _ => sim.turn (.answer call.number .process (end_ .process vars))
  | .request _ =>
    let named := due.bind fun due => due.instant? sim.system.now
    sim.turn (.answer call.number .request (end_ .request named))
  | .respond _ input =>
    sim.turn (.answer call.number .respond (end_ .respond (result.getD input, vars)))

/-- Does what a frame says, given the value of what ran before it. -/
def Simulation.runFrame (sim : Simulation) (value : StepResult) :
    Frame → Turn Frame StepResult × Simulation
  | .step step => sim.scenarioStep step
  | .side self (.engine step) => sim.engineStep (some self) step
  | .side self (.respond task input) =>
    if sim.system.released then (.go [] .noDispatcher, sim)
    else sim.turn (.respond (sim.taskFor (some self) task) input)
  | .side _ (.setWorkerId worker) =>
    if sim.system.released then (.go [] .noDispatcher, sim) else sim.turn (.setWorkerId worker)
  | .tellSide => (.go [] .nothing, sim.tell (.side value))
  | .batch rest done =>
    let done := done ++ [value]
    match rest with
    | [] => (.go [] (.results done), sim)
    | next :: rest => (.go [.step next, .batch rest done] .nothing, sim)
  | .typed type => (.go [] (value.typed type), sim)
  | .start action => sim.turn (.start action)
  | .resume action => sim.turn (.resume action)
  | .delay action time => (.sleep time.ticks [.wake action], sim)
  | .wake action => sim.turn (.wake action)
  | .awaitJob job =>
    let due := (sim.system.engine.jobs.find? fun other => other.id = job).elim sim.system.now Job.due
    (.sleep (sim.system.now.until due).ticks [.runJob job], sim)
  | .runJob job => sim.turn (.runJob job)
  | .play call [] entry => (.sleep entry.sleep.toNat [.endCall call entry.ending], sim)
  | .play call (side :: rest) entry =>
    (.go [.side call.task side, .tellSide, .play call rest entry] .nothing, sim)
  | .endCall call ending => sim.endCall call ending
  | .pollIdle deadline =>
    if sim.system.host.inFlight = 0 then (.go [] (.flag true), sim)
    else if deadline ≤ sim.timeline.elapsed then (.go [] (.flag false), sim)
    else (.sleep 5 [.pollIdle deadline], sim)
  | .startSweeper id interval onStartup =>
    if onStartup then (.go [.sweeper id interval] .nothing, sim)
    else if id ∈ sim.stopping then (.go [.sweeper id interval] .nothing, sim)
    else (.sleep interval [.sweeper id interval], sim)
  | .sweeper id interval =>
    if id ∈ sim.stopping then
      (.go [] .nothing, { (sim.move .dropSweeper).2 with stopped := id :: sim.stopped })
    else (.sleep interval [.sweeper id interval], (sim.move .sweep).2)

instance : Threaded Simulation Frame StepResult where
  timeline := Simulation.timeline
  onTimeline sim timeline := { sim with timeline := timeline }
  nothing := .nothing
  turn := Simulation.runFrame
  passTo := Simulation.passTo

end TaskLeasing
