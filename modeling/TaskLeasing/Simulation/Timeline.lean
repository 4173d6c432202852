import TaskLeasing.Time.Instant

namespace TaskLeasing

/-- When virtual time starts unless told otherwise: 2023-11-14 22:13:20 UTC. -/
def Timeline.origin : Instant := ⟨1700000000000 * 1000000, false, by decide, by decide⟩

/-- A single thread of virtual time, in milliseconds from its start. What is ready runs first come
first served; time passes only when nothing is ready. -/
structure Timeline (φ : Type) where
  elapsed : Nat
  ready : List φ
  /-- What sleeps, by the time it wakes, of one time in the order it fell asleep. -/
  sleeping : List (Nat × φ)

variable {φ : Type}

def Timeline.start : Timeline φ := ⟨0, [], []⟩

def Timeline.enqueue (line : Timeline φ) (fiber : φ) : Timeline φ :=
  { line with ready := line.ready ++ [fiber] }

def insertSleeper (wake : Nat) (fiber : φ) : List (Nat × φ) → List (Nat × φ)
  | [] => [(wake, fiber)]
  | (time, other) :: rest =>
    if wake < time then (wake, fiber) :: (time, other) :: rest
    else (time, other) :: insertSleeper wake fiber rest

def Timeline.sleep (line : Timeline φ) (ticks : Nat) (fiber : φ) : Timeline φ :=
  { line with sleeping := insertSleeper (line.elapsed + ticks) fiber line.sleeping }

def Timeline.nextWake? (line : Timeline φ) : Option Nat := line.sleeping.head?.map Prod.fst

/-- Moves time on. What has slept long enough becomes ready. -/
def Timeline.passTo (line : Timeline φ) (time : Nat) : Timeline φ :=
  { line with
    elapsed := time
    ready := line.ready ++
      (line.sleeping.takeWhile fun sleeper => sleeper.1 ≤ time).map Prod.snd
    sleeping := line.sleeping.dropWhile fun sleeper => sleeper.1 ≤ time }

/-- Wakes what sleeps and satisfies a condition before its time. -/
def Timeline.rouse (line : Timeline φ) (select : φ → Bool) : Timeline φ :=
  { line with
    ready := line.ready ++ (line.sleeping.filter fun sleeper => select sleeper.2).map Prod.snd
    sleeping := line.sleeping.filter fun sleeper => ¬ select sleeper.2 }

end TaskLeasing
