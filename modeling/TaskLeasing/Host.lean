import TaskLeasing.Time.Instant

namespace TaskLeasing

/-- Work given to a host. Bounded work needs a permit to run. -/
structure HostAction (α : Type) where
  number : Nat
  label : String
  bounded : Bool
  work : α

/-- Work that a host takes up once a time has come, which it never does beyond the calendar. -/
structure DelayedAction (α : Type) where
  number : Nat
  label : String
  due : Option Instant
  work : α

/-- A host runs the work given to it, of the bounded kind no more at once than it has permits. An
action is queued until it is first taken up; a bounded one that finds no permit waits for one, first
come first served, and is granted the permit of an action that ends. -/
structure Host (α : Type) where
  limit : Nat
  free : Nat
  inFlight : Nat
  issued : Nat
  queued : List (HostAction α)
  waiting : List (HostAction α)
  granted : List (HostAction α)
  running : List (HostAction α)
  delayed : List (DelayedAction α)

variable {α : Type}

/-- An idle host with a permit at least. -/
def Host.idle (permits : Nat) : Host α where
  limit := max 1 permits
  free := max 1 permits
  inFlight := 0
  issued := 0
  queued := []
  waiting := []
  granted := []
  running := []
  delayed := []

/-- Gives work to a host, under the next number. -/
def Host.submit (h : Host α) (label : String) (bounded : Bool) (work : α) : Host α :=
  { h with
    issued := h.issued + 1
    inFlight := h.inFlight + 1
    queued := h.queued ++ [⟨h.issued, label, bounded, work⟩] }

/-- Gives bounded work to a host for a later time. It counts as in flight only from then on. -/
def Host.defer (h : Host α) (label : String) (due : Option Instant) (work : α) : Host α :=
  { h with issued := h.issued + 1, delayed := h.delayed ++ [⟨h.issued, label, due, work⟩] }

/-- Submits delayed work whose time has come. -/
def Host.wake (h : Host α) (now : Instant) (number : Nat) : Host α :=
  match h.delayed.find? fun d => d.number = number ∧ d.due.any (· ≤ now) with
  | none => h
  | some d =>
    { h with delayed := h.delayed.filter fun other => other.number ≠ number }.submit d.label true d.work

/-- Takes up a queued action: it runs, or waits for a permit if it needs one and none is free. -/
def Host.start (h : Host α) (number : Nat) : Host α :=
  match h.queued.find? fun a => a.number = number with
  | none => h
  | some a =>
    let queued := h.queued.filter fun other => other.number ≠ number
    if ¬ a.bounded then { h with queued := queued, running := h.running ++ [a] }
    else if 0 < h.free then
      { h with queued := queued, free := h.free - 1, running := h.running ++ [a] }
    else { h with queued := queued, waiting := h.waiting ++ [a] }

/-- Takes up an action that has been granted a permit. -/
def Host.resume (h : Host α) (number : Nat) : Host α :=
  match h.granted.find? fun a => a.number = number with
  | none => h
  | some a =>
    { h with
      granted := h.granted.filter fun other => other.number ≠ number
      running := h.running ++ [a] }

/-- The action that gets the permit of a running one when that ends. -/
def Host.successor? (h : Host α) (number : Nat) : Option Nat :=
  match h.running.find? fun a => a.number = number with
  | some a => if a.bounded then h.waiting.head?.map HostAction.number else none
  | none => none

/-- Ends a running action, however it went. Its permit passes to the first action that waits, or
becomes free. -/
def Host.finish (h : Host α) (number : Nat) : Host α :=
  match h.running.find? fun a => a.number = number with
  | none => h
  | some a =>
    let ended : Host α :=
      { h with
        inFlight := h.inFlight - 1
        running := h.running.filter fun other => other.number ≠ number }
    if ¬ a.bounded then ended
    else match h.waiting with
      | [] => { ended with free := h.free + 1 }
      | next :: rest => { ended with waiting := rest, granted := h.granted ++ [next] }

/-- The running action of a number. -/
def Host.running? (h : Host α) (number : Nat) : Option (HostAction α) :=
  h.running.find? fun a => a.number = number

/-- All work that a host holds and has not finished. -/
def Host.works (h : Host α) : List α :=
  h.queued.map HostAction.work ++ h.waiting.map HostAction.work ++ h.granted.map HostAction.work ++
    h.running.map HostAction.work ++ h.delayed.map DelayedAction.work

end TaskLeasing
