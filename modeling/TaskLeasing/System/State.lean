import TaskLeasing.Engine.Step
import TaskLeasing.Fault
import TaskLeasing.Host
import TaskLeasing.Log
import TaskLeasing.Outcome
import TaskLeasing.Registry
import TaskLeasing.Retry

namespace TaskLeasing

/-- Work that the dispatcher leaves to its host. -/
inductive Work
  /-- Lease for a registration, asynchronously. -/
  | deferLease (registration : Registration)
  | lease (registration : Registration)
  /-- Lease for a registration once a delay is over. -/
  | deferRetry (registration : Registration) (delay : Span)
  /-- Process leased tasks, each asynchronously. -/
  | handOut (tasks : List LeasedTask)
  | process (task : LeasedTask)
  /-- Make up for the completion of a task that the engine refused. -/
  | compensate (task : ExternalTask) (worker : String) (vars : Variables) (error : EngineError)

/-- Whether work keeps the dispatcher alive until it is done. A compensation needs the engine alone. -/
def Work.holdsDispatcher : Work → Bool
  | .compensate .. => false
  | _ => true

inductive CallKind
  | process
  | request
  | respond
deriving DecidableEq

/-- What a processor of a kind returns: the variables of a task, when the response to a request is
due if it says so, or the answer to a response and the variables of the task. -/
abbrev CallKind.Value : CallKind → Type
  | .process => Variables
  | .request => Option Instant
  | .respond => Json × Variables

/-- How the call of a processor ends. -/
inductive Attempt (α : Type)
  | returned (value : α)
  | failed (error : ProcessorError)
  | panicked (reason : String)

/-- A panic counts as a failure. -/
def Attempt.result {α : Type} : Attempt α → Except ProcessorError α
  | .returned value => .ok value
  | .failed error => .error error
  | .panicked reason => .error (.plain ("Processor panicked: " ++ reason))

/-- What a processor is called for. -/
inductive CallSubject
  | process (task : LeasedTask)
  | request (task : LeasedTask)
  | respond (task : ExternalTask) (input : Json)

def CallSubject.kind : CallSubject → CallKind
  | .process _ => .process
  | .request _ => .request
  | .respond .. => .respond

/-- A call of a processor that has not ended yet, with the worker it was made for and the host's
action it is part of, if it is part of one. -/
structure ProcessorCall where
  number : Nat
  action : Option Nat
  registration : Registration
  worker : String
  subject : CallSubject

/-- The task at hand in a call. -/
def ProcessorCall.task (call : ProcessorCall) : String :=
  match call.subject with
  | .process task => task.id
  | .request task => task.id
  | .respond task _ => task.id

/-- The handlers of jobs: the dispatcher's watchdog, or one of another party. -/
inductive JobHandler
  | watchdog
  | other (fails : Bool)
deriving DecidableEq

/-- What can be observed of a system, in the order it happens. -/
inductive Note
  | started (event : ActivityStarted)
  | asked (kind : AnswerKind) (operation : Operation kind) (result : Except EngineError kind.Value)
  | topicAsked (definitionKey activity : String) (topic : Option String)
  | jobScheduled (job : String)
  | jobHandled (configuration : String)
  | afterCommit (label : String)
  | runAsync (label : String)
  | runAfter (label : String) (delay : Span)
  | submitted (action : Nat)
  | delayed (action : Nat) (delay : Span)
  | granted (action : Nat)
  | called (call : ProcessorCall)
  | logged (record : LogRecord)

structure JournalEntry where
  time : Instant
  note : Note

/-- The names that things get by their number in the order of creation. -/
structure Naming where
  instanceId : Nat → String
  execution : Nat → String
  task : Nat → String
  job : Nat → String
  incident : Nat → String

/-- The names for what the engine creates next. -/
def Naming.next (names : Naming) (e : Engine) : FreshNames where
  instanceId := names.instanceId (e.instances.length + 1)
  execution := names.execution (e.instances.length + 1)
  task := names.task (e.sequence + 1)
  job := names.job (e.jobs.length + 1)
  incident := names.incident (e.incidents.length + 1)

/-- An engine, a dispatcher and the host of the dispatcher. -/
structure System where
  names : Naming
  now : Instant
  /-- The clock shows no leap seconds. -/
  ordinary : now.leap = false
  engine : Engine
  handlers : List (String × JobHandler)
  /-- How often the dispatcher is subscribed to the engine's events. -/
  listening : Nat
  registry : Registry
  settings : Settings
  counters : Counters
  host : Host Work
  /-- Work held back until it is committed, if the host holds any back. -/
  gate : Option (List (String × Work))
  calls : List ProcessorCall
  callCount : Nat
  /-- Whether the owner of the dispatcher has let go of it. -/
  released : Bool
  /-- How many sweepers hold the dispatcher. -/
  sweepers : Nat
  /-- What was observed so far, the latest first. -/
  journal : List JournalEntry

/-- A system that has done nothing yet. -/
def System.create (names : Naming) (now : Instant) (settings : Settings) (gated : Bool) : System where
  names := names
  now := now.shown
  ordinary := now.shown_ordinary
  engine := .empty
  handlers := []
  listening := 0
  registry := .empty
  settings := settings
  counters := .zero
  host := .idle settings.maxConcurrent.toNat
  gate := if gated then some [] else none
  calls := []
  callCount := 0
  released := false
  sweepers := 0
  journal := []

def System.note (s : System) (note : Note) : System :=
  { s with journal := ⟨s.now, note⟩ :: s.journal }

def System.log (s : System) (record : LogRecord) : System := s.note (.logged record)

/-- An error that the dispatcher logs and goes on from. -/
def System.logError (s : System) (operation error : String) (context : String) : System :=
  s.log (.error "dispatcher" operation error (some context))

/-- The dispatcher lives as long as its owner, a sweeper, or work at the host holds it. -/
def System.isAlive (s : System) : Bool :=
  !s.released || 0 < s.sweepers || s.host.works.any Work.holdsDispatcher ||
    (s.gate.getD []).any fun held => held.2.holdsDispatcher

/-- Gives work to the host. -/
def System.submit (s : System) (label : String) (bounded : Bool) (work : Work) : System :=
  { s with host := s.host.submit label bounded work }.note (.submitted s.host.issued)

/-- Leaves work to be run once the current unit of work has committed. -/
def System.afterCommit (s : System) (label : String) (work : Work) : System :=
  let s := s.note (.afterCommit label)
  match s.gate with
  | some held => { s with gate := some (held ++ [(label, work)]) }
  | none => s.submit label false work

/-- Leaves work to be run when the host has a permit for it. -/
def System.runAsync (s : System) (label : String) (work : Work) : System :=
  (s.note (.runAsync label)).submit label true work

/-- Leaves work to be run asynchronously after a delay. -/
def System.runAfter (s : System) (label : String) (delay : Span) (work : Work) : System :=
  let s := s.note (.runAfter label delay)
  { s with host := s.host.defer label (s.now.plus? delay) work }.note (.delayed s.host.issued delay)

/-- Gives the work held back to the host, in order. -/
def System.commit (s : System) : Nat × System :=
  match s.gate with
  | none => (0, s)
  | some held =>
    (held.length, held.foldl (fun s (label, work) => s.submit label false work)
      { s with gate := some [] })

end TaskLeasing
