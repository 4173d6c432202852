import TaskLeasing.System.State

namespace TaskLeasing

/-- The largest number of tasks that a lease of the dispatcher asks for. -/
def unboundedLease : Nat := 2147483647

/-- The dispatcher's answer to an activity that was entered: if a registration serves the activity's
topic, a lease for it is left to be made after commit. -/
def System.react (s : System) (event : ActivityStarted) : System :=
  if ¬ s.isAlive then s
  else
    let topic := s.engine.topic? event.definitionKey event.activity
    let s := s.note (.topicAsked event.definitionKey event.activity topic)
    match topic.bind fun topic => s.registry.lookup ⟨event.definitionKey, topic⟩ with
    | some registration => s.afterCommit "fetch_and_lock" (.deferLease registration)
    | none => s

/-- Tells every subscriber of an activity that was entered. -/
def System.announce (s : System) (event : ActivityStarted) : System :=
  (List.range s.listening).foldl (fun s _ => s.react event) (s.note (.started event))

/-- A call of the engine, with what its subscribers do about it. -/
def System.call (s : System) {kind : AnswerKind} (operation : Operation kind) :
    Except EngineError kind.Value × System :=
  let reply := s.engine.step s.now (s.names.next s.engine) operation
  (reply.result, reply.started.foldl System.announce { s with engine := reply.engine })

/-- A call of the engine that can be observed with its result. -/
def System.ask (s : System) {kind : AnswerKind} (operation : Operation kind) :
    Except EngineError kind.Value × System :=
  let (result, s) := s.call operation
  (result, s.note (.asked kind operation result))

/-- What the dispatcher asks for when it leases for a registration. -/
def System.leaseRequest (s : System) (registration : Registration) : LeaseRequest where
  maxTasks := unboundedLease
  worker := s.settings.workerId
  topic := registration.key.topic
  lock := registration.effectiveLock s.settings.lockTimeout
  vars := registration.vars
  definitionKey := if s.settings.leasePerDefinition then some registration.key.definitionKey else none

def System.logTask (s : System) (operation : String) (task : LeasedTask) (status : String) : System :=
  s.log (.task operation task.id (some task.topic) (some task.definitionKey) status none)

/-- Leases for a registration and leaves the leased tasks to be handed out after commit. -/
def System.leaseNow (s : System) (registration : Registration) : Except EngineError Nat × System :=
  match s.ask (.lease (s.leaseRequest registration)) with
  | (.error error, s) => (.error error, s)
  | (.ok [], s) => (.ok 0, s)
  | (.ok tasks, s) =>
    let s := { s with counters := s.counters.countLeased (UInt64.ofNat tasks.length) }
    let s := tasks.foldl (fun s task => s.logTask "fetch_and_lock" task "leased") s
    (.ok tasks.length, s.afterCommit "process" (.handOut tasks))

/-- A lease that was left to the host: its failure is counted and logged. -/
def System.leaseLogged (s : System) (registration : Registration) : System :=
  match s.leaseNow registration with
  | (.ok _, s) => s
  | (.error error, s) =>
    { s with counters := s.counters.countLeaseFailure }.logError "fetch_and_lock" error.message
      registration.key.text

/-- Leaves a lease for every registration to be made after commit, and gives their number. -/
def System.sweep (s : System) : Nat × System :=
  (s.registry.size, s.registry.entries.foldl
    (fun s registration => s.afterCommit "fetch_and_lock" (.deferLease registration)) s)

/-- Leases at once for a pair of definition key and topic, if it is registered. -/
def System.dispatch (s : System) (key : RegistrationKey) : Except Fault Nat × System :=
  match s.registry.lookup key with
  | none => (.ok 0, s)
  | some registration =>
    let (result, s) := s.leaseNow registration
    (result.mapError Fault.engine, s)

end TaskLeasing
