import TaskLeasing.Simulation.Timeline

namespace TaskLeasing

/-- What a frame of a thread leads to: frames in its place with a value for the first of them, a wait
before them, or a wait before them until nothing else is ready. -/
inductive Turn (φ ν : Type)
  | go (frames : List φ) (value : ν)
  | sleep (ticks : Nat) (frames : List φ)
  | settle (frames : List φ)

/-- A state that threads work on. A thread is a list of frames, each of which is done with the value
that the one before it gave. -/
class Threaded (σ : Type) (φ ν : outParam Type) where
  timeline : σ → Timeline (List φ)
  onTimeline : σ → Timeline (List φ) → σ
  nothing : ν
  turn : σ → ν → φ → Turn φ ν × σ
  passTo : σ → Nat → σ

/-- How far a thread got: to its end with a value, or to a wait. -/
inductive Halt (φ ν : Type)
  | ended (value : ν)
  | asleep (ticks : Nat) (frames : List φ)
  | settling (frames : List φ)

namespace Threaded

variable {σ φ ν : Type} [Threaded σ φ ν]

def spawn (state : σ) (frames : List φ) : σ := onTimeline state ((timeline state).enqueue frames)

/-- Runs a thread until it ends or has to wait. A wait of no time is none. -/
def runThread : (fuel : Nat) → σ → List φ → ν → Halt φ ν × σ
  | 0, state, _, value => (.ended value, state)
  | _, state, [], value => (.ended value, state)
  | fuel + 1, state, frame :: rest, value =>
    match turn state value frame with
    | (.go frames value, state) => runThread fuel state (frames ++ rest) value
    | (.sleep 0 frames, state) => runThread fuel state (frames ++ rest) (nothing σ)
    | (.sleep ticks frames, state) => (.asleep ticks (frames ++ rest), state)
    | (.settle frames, state) => (.settling (frames ++ rest), state)

/-- Runs what is ready until nothing is, without time passing. -/
def drain : (fuel : Nat) → σ → σ
  | 0, state => state
  | fuel + 1, state => match (timeline state).ready with
    | [] => state
    | thread :: rest =>
      match runThread fuel (onTimeline state { timeline state with ready := rest }) thread (nothing σ) with
      | (.asleep ticks frames, state) =>
        drain fuel (onTimeline state ((timeline state).sleep ticks frames))
      | (.settling frames, state) => drain fuel (spawn state frames)
      | (.ended _, state) => drain fuel state

/-- Lets time pass up to a moment, with all that happens before it. What wakes at the moment itself
stays ready. -/
def waitUntil (target : Nat) : (fuel : Nat) → σ → σ
  | 0, state => state
  | fuel + 1, state =>
    let state := drain fuel state
    match (timeline state).nextWake? with
    | some wake => if wake < target then waitUntil target fuel (passTo state wake) else passTo state target
    | none => passTo state target

/-- Runs the thread that time passes for, to its end. -/
def runMain : (fuel : Nat) → σ → List φ → ν → ν × σ
  | 0, state, _, value => (value, state)
  | fuel + 1, state, frames, value =>
    match runThread fuel state frames value with
    | (.ended value, state) => (value, state)
    | (.asleep ticks frames, state) =>
      runMain fuel (waitUntil ((timeline state).elapsed + ticks) fuel state) frames (nothing σ)
    | (.settling frames, state) => runMain fuel (drain fuel state) frames (nothing σ)

/-- A bound on what one step may set off. -/
def stepBound : Nat := 1000000000

/-- Takes a step on the main thread and then runs all that is ready. -/
def takeStep (state : σ) (frame : φ) : ν × σ :=
  let (value, state) := runMain stepBound state [frame] (nothing σ)
  (value, drain stepBound state)

end Threaded

end TaskLeasing
