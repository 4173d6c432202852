import TaskLeasing.System.Timeout

namespace TaskLeasing

/-- What can happen to a system, at any time and in any order: calls of the engine by others, calls of
the dispatcher, processors that end, and the host's and the engine's own steps. -/
inductive Move
  | operate (kind : AnswerKind) (operation : Operation kind)
  | setHandler (type : String) (fails : Bool)
  | attach
  | register (definitionKey topic : String) (lockTimeout : Option Span) (vars : VariableScope)
      (contract : Contract)
  | sweep
  | dispatch (key : RegistrationKey)
  | process (task : LeasedTask)
  | respond (task : String) (input : Json)
  | fireWatchdog (payload : String)
  | setWorkerId (worker : String)
  | setLockTimeout (timeout : Span)
  | release
  | holdSweeper
  | dropSweeper
  /-- The processor of a call ends. -/
  | answer (call : Nat) (kind : CallKind) (attempt : Attempt kind.Value)
  /-- The host takes up an action that was queued. -/
  | start (action : Nat)
  /-- The host takes up an action that was granted a permit. -/
  | resume (action : Nat)
  /-- The delay of an action is over. -/
  | wake (action : Nat)
  | commit
  | runJob (job : String)
  | passTo (time : Instant)

/-- What comes of a move. -/
inductive Consequence
  | nothing
  | answered (kind : AnswerKind) (result : Except EngineError kind.Value)
  | registered (result : Except Fault Registration)
  | counted (number : Nat)
  | dispatched (result : Except Fault Nat)
  | processed (outcome : Outcome)
  | responded (result : Except ResponseError Json)
  | checked (result : Except WatchdogError Verdict)
  | changed (result : Except Fault Unit)
  | calling (call : ProcessorCall)

def System.attach (s : System) : System :=
  { s.setHandler watchdogJobType .watchdog with listening := s.listening + 1 }

def System.register (s : System) (definitionKey topic : String) (lockTimeout : Option Span)
    (vars : VariableScope) (contract : Contract) : Except Fault Registration × System :=
  match s.registry.register definitionKey topic lockTimeout vars contract with
  | .ok (entry, registry) =>
    (.ok entry, { s with registry := registry }.log
      (.registry "register" entry.key.text entry.contract.kind none))
  | .error (.alreadyRegistered key) =>
    (.error (.registration (.alreadyRegistered key)),
      s.log (.registry "register" key "rejected" (some "duplicate registration")))
  | .error fault => (.error (.registration fault), s)

/-- Ends the host's action that a call or a piece of work was part of. -/
def System.finishAction (s : System) (action : Nat) : System :=
  let successor := s.host.successor? action
  let s := { s with host := s.host.finish action }
  successor.elim s fun next => s.note (.granted next)

/-- Runs the work of an action. Processing goes on when its processor answers; all else is done at
once. -/
def System.runAction (s : System) (action : Nat) : Consequence × System :=
  match s.host.running? action with
  | none => (.nothing, s)
  | some running => match running.work with
    | .deferLease registration =>
      (.nothing, (s.runAsync "fetch_and_lock" (.lease registration)).finishAction action)
    | .lease registration => (.nothing, (s.leaseLogged registration).finishAction action)
    | .deferRetry registration delay =>
      (.nothing, (s.runAfter "retry" delay (.lease registration)).finishAction action)
    | .handOut tasks =>
      (.nothing,
        (tasks.foldl (fun s task => s.runAsync "process" (.process task)) s).finishAction action)
    | .process task => match s.process (some action) task with
      | (.finished _, s) => (.nothing, s.finishAction action)
      | (.calling call, s) => (.calling call, s)
    | .compensate task worker vars error =>
      (.nothing, (s.compensate task worker vars error).finishAction action)

def System.finishCall (s : System) (call : ProcessorCall) : System :=
  call.action.elim s s.finishAction

/-- Goes on with what a processor was called for when the processor ends. An answer that the call
does not ask for changes nothing. -/
def System.endCall (s : System) (number : Nat) (kind : CallKind) (attempt : Attempt kind.Value) :
    Consequence × System :=
  match s.calls.find? fun call => call.number = number with
  | none => (.nothing, s)
  | some call =>
    let ended := { s with calls := s.calls.filter fun other => other.number ≠ number }
    match call.subject, kind, attempt with
    | .process task, .process, attempt =>
      let (outcome, s) := ended.endProcess call task attempt
      (.processed outcome, s.finishCall call)
    | .request task, .request, attempt =>
      let (outcome, s) := ended.endRequest call task attempt
      (.processed outcome, s.finishCall call)
    | .respond task _, .respond, attempt =>
      let (result, s) := ended.endRespond call task attempt
      (.responded result, s.finishCall call)
    | _, _, _ => (.nothing, s)

/-- A call of the engine by another party. That a job was scheduled can be observed; other calls are
seen by their caller alone. -/
def System.operate (s : System) {kind : AnswerKind} (operation : Operation kind) :
    Except EngineError kind.Value × System :=
  match operation with
  | .scheduleJob due payload => match s.ask (.scheduleJob due payload) with
    | (.ok job, s) => (.ok job, s.note (.jobScheduled job))
    | (.error error, s) => (.error error, s)
  | operation => s.call operation

def System.passTo (s : System) (time : Instant) : System :=
  { s with now := time.shown, ordinary := time.shown_ordinary }

def System.step (s : System) : Move → Consequence × System
  | .operate kind operation =>
    let (result, s) := s.operate operation
    (.answered kind result, s)
  | .setHandler type fails => (.nothing, s.setHandler type (.other fails))
  | .attach => (.nothing, s.attach)
  | .register definitionKey topic lockTimeout vars contract =>
    let (result, s) := s.register definitionKey topic lockTimeout vars contract
    (.registered result, s)
  | .sweep =>
    let (number, s) := s.sweep
    (.counted number, s)
  | .dispatch key =>
    let (result, s) := s.dispatch key
    (.dispatched result, s)
  | .process task => match s.process none task with
    | (.finished outcome, s) => (.processed outcome, s)
    | (.calling call, s) => (.calling call, s)
  | .respond task input => match s.respond task input with
    | (.finished result, s) => (.responded result, s)
    | (.calling call, s) => (.calling call, s)
  | .fireWatchdog payload =>
    let (result, s) := s.fireWatchdog payload
    (.checked result, s)
  | .setWorkerId worker => (.nothing, { s with settings := { s.settings with workerId := worker } })
  | .setLockTimeout timeout => match s.settings.setLockTimeout timeout with
    | .ok settings => (.changed (.ok ()), { s with settings := settings })
    | .error error => (.changed (.error (.settings error)), s)
  | .release => (.nothing, { s with released := true })
  | .holdSweeper => (.nothing, { s with sweepers := s.sweepers + 1 })
  | .dropSweeper => (.nothing, { s with sweepers := s.sweepers - 1 })
  | .answer call kind attempt => s.endCall call kind attempt
  | .start action =>
    if s.host.queued.any fun a => a.number = action then
      { s with host := s.host.start action }.runAction action
    else (.nothing, s)
  | .resume action =>
    if s.host.granted.any fun a => a.number = action then
      { s with host := s.host.resume action }.runAction action
    else (.nothing, s)
  | .wake action =>
    let host := s.host.wake s.now action
    if host.queued.length = s.host.queued.length then (.nothing, s)
    else (.nothing, { s with host := host }.note (.submitted s.host.issued))
  | .commit =>
    let (number, s) := s.commit
    (.counted number, s)
  | .runJob job => (.nothing, s.runJob job)
  | .passTo time => (.nothing, s.passTo time)

/-- The state after moves one after the other. -/
def System.run (s : System) (moves : List Move) : System :=
  moves.foldl (fun s move => (s.step move).2) s

end TaskLeasing
