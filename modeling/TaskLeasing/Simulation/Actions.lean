import TaskLeasing.Host
import TaskLeasing.Log
import TaskLeasing.Simulation.Threads

namespace TaskLeasing

/-- An action that begins, waits, and then ends or panics. -/
structure ScriptedAction where
  name : String
  sleep : UInt64
  panic : Option String

/-- Steps that are taken with a host. -/
inductive HostStep
  | afterCommit (action : ScriptedAction)
  | runAsync (action : ScriptedAction)
  | runAfter (delay : UInt64) (action : ScriptedAction)
  | advance (millis : UInt64)
  | waitIdle (timeout : UInt64)
  | countInFlight
  | batch (steps : List HostStep)

inductive HostResult
  | nothing
  | flag (value : Bool)
  | number (value : Nat)
  | results (results : List HostResult)

/-- What a host that runs scripted actions shows of them. -/
inductive HostEvent
  | begun (name : String)
  | ended (name : String)
  | logged (record : LogRecord)

/-- What a thread of such a host does next. -/
inductive HostFrame
  | step (step : HostStep)
  /-- Goes on with a batch after a step of it. -/
  | batch (rest : List HostStep) (done : List HostResult)
  | start (action : Nat)
  | resume (action : Nat)
  | finish (action : Nat)
  | delay (action : Nat) (millis : UInt64)
  | wake (action : Nat)
  | pollIdle (deadline : Nat)

/-- A host that runs scripted actions on virtual time. -/
structure HostRun where
  host : Host ScriptedAction
  timeline : Timeline (List HostFrame)
  /-- What happened and when, the latest first. -/
  trace : List (Nat × HostEvent)

def HostRun.create (permits : Nat) : HostRun := ⟨.idle permits, .start, []⟩

/-- The time that has come. -/
def HostRun.now (run : HostRun) : Instant :=
  (Instant.ofNanos? (Timeline.origin.nanos + run.timeline.elapsed * 1000000)).getD .last

def HostRun.tell (run : HostRun) (event : HostEvent) : HostRun :=
  { run with trace := (run.timeline.elapsed, event) :: run.trace }

def HostRun.spawn (run : HostRun) (frame : HostFrame) : HostRun :=
  { run with timeline := run.timeline.enqueue [frame] }

def HostRun.submit (run : HostRun) (label : String) (bounded : Bool) (action : ScriptedAction) :
    HostRun :=
  { run with host := run.host.submit label bounded action }.spawn (.start run.host.issued)

def HostRun.defer (run : HostRun) (delay : UInt64) (action : ScriptedAction) : HostRun :=
  let due := (run.now.plus? (.ofMillis delay)).getD .last
  { run with host := run.host.defer "run_after" (some due) action }.spawn (.delay run.host.issued delay)

/-- Lets an action begin if it is running now. -/
def HostRun.begin (run : HostRun) (number : Nat) : Turn HostFrame HostResult × HostRun :=
  match run.host.running? number with
  | some action => (.sleep action.work.sleep.toNat [.finish number], run.tell (.begun action.work.name))
  | none => (.go [] .nothing, run)

/-- Lets a running action end, and the one begin that its permit passes to. -/
def HostRun.finish (run : HostRun) (number : Nat) : HostRun :=
  match run.host.running? number with
  | none => run
  | some action =>
    let run := run.tell (match action.work.panic with
      | some reason => .logged (.panic action.label reason)
      | none => .ended action.work.name)
    let successor := run.host.successor? number
    let run := { run with host := run.host.finish number }
    successor.elim run fun next => run.spawn (.resume next)

/-- Submits a delayed action whose time has come. -/
def HostRun.wake (run : HostRun) (number : Nat) : HostRun :=
  let host := run.host.wake run.now number
  if host.issued = run.host.issued then run
  else { run with host := host }.spawn (.start run.host.issued)

def HostRun.takeStep (run : HostRun) (step : HostStep) : Turn HostFrame HostResult × HostRun :=
  match step with
  | .afterCommit action => (.go [] .nothing, run.submit "after_commit" false action)
  | .runAsync action => (.go [] .nothing, run.submit "run_async" true action)
  | .runAfter delay action => (.go [] .nothing, run.defer delay action)
  | .advance millis => (.sleep millis.toNat [], run)
  | .waitIdle timeout => (.go [.pollIdle (run.timeline.elapsed + timeout.toNat)] .nothing, run)
  | .countInFlight => (.go [] (.number run.host.inFlight), run)
  | .batch [] => (.go [] (.results []), run)
  | .batch (first :: rest) => (.go [.step first, .batch rest []] .nothing, run)

def HostRun.turn (run : HostRun) (value : HostResult) : HostFrame → Turn HostFrame HostResult × HostRun
  | .step step => run.takeStep step
  | .batch rest done =>
    let done := done ++ [value]
    match rest with
    | [] => (.go [] (.results done), run)
    | next :: rest => (.go [.step next, .batch rest done] .nothing, run)
  | .start action => { run with host := run.host.start action }.begin action
  | .resume action => { run with host := run.host.resume action }.begin action
  | .finish action => (.go [] .nothing, run.finish action)
  | .delay action millis => (.sleep millis.toNat [.wake action], run)
  | .wake action => (.go [] .nothing, run.wake action)
  | .pollIdle deadline =>
    if run.host.inFlight = 0 then (.go [] (.flag true), run)
    else if deadline ≤ run.timeline.elapsed then (.go [] (.flag false), run)
    else (.sleep 5 [.pollIdle deadline], run)

instance : Threaded HostRun HostFrame HostResult where
  timeline := HostRun.timeline
  onTimeline run timeline := { run with timeline := timeline }
  nothing := .nothing
  turn := HostRun.turn
  passTo run time := { run with timeline := run.timeline.passTo time }

/-- What a step gave, what happened in it in order, and how things stand after it. -/
structure HostReport where
  result : HostResult
  trace : List (Nat × HostEvent)
  inFlight : Nat
  elapsed : Nat

def HostRun.report (run : HostRun) (step : HostStep) : HostReport × HostRun :=
  let (result, run) := Threaded.takeStep { run with trace := [] } (.step step)
  (⟨result, run.trace.reverse, run.host.inFlight, run.timeline.elapsed⟩, run)

/-- Takes steps one after the other. -/
def HostRun.reports : HostRun → List HostStep → List HostReport
  | _, [] => []
  | run, step :: rest =>
    let (report, run) := run.report step
    report :: run.reports rest

end TaskLeasing
