import TaskLeasing.System.Response

namespace TaskLeasing

/-- The message that a missing response to a task is reported with: the one of the task's
registration, or else the worker's. -/
def System.timeoutMessage (s : System) (task : ExternalTask) : String :=
  match (s.registry.lookup ⟨task.definitionKey, task.topic⟩).map Registration.contract with
  | some (.async _ (some message)) => message
  | _ => s.settings.timeoutMessage

/-- Looks whether the watched lock is still the task's lock and has not expired, and if so reports
the missing response. -/
def System.checkWatchdog (s : System) (watchdog : Watchdog) : Except EngineError Verdict × System :=
  match s.ask (.findTask watchdog.task) with
  | (.error error, s) => (.error error, s)
  | (.ok none, s) => (.ok .taskGone, s)
  | (.ok (some task), s) => match task.lockExpiry.filter fun _ => task.isLocked with
    | none => (.ok .taskGone, s)
    | some current =>
      if ¬ watchdog.guards current then (.ok .released, s)
      else if current ≤ s.now then (.ok .stale, s)
      else
        let details := "No response received for external task " ++ task.id ++ " (activity " ++
          task.activity ++ ") while locked until " ++ watchdog.lockExpiry.display
        match s.ask (.failure task.id s.settings.workerId (.terminal (s.timeoutMessage task) details)) with
        | (.error error, s) => (.error error, s)
        | (.ok _, s) => (.ok .fired, s)

/-- Runs a watchdog by its payload and counts what it found. -/
def System.fireWatchdog (s : System) (payload : String) : Except WatchdogError Verdict × System :=
  match Watchdog.ofPayload? payload with
  | none => (.error (.malformed payload), s)
  | some watchdog => match s.checkWatchdog watchdog with
    | (.error error, s) => (.error (.engine error), s)
    | (.ok verdict, s) =>
      (.ok verdict, { s with counters := s.counters.countWatchdog (verdict = .fired) })

/-- The handler registered last for a type of jobs. -/
def System.handler? (s : System) (type : String) : Option JobHandler :=
  (s.handlers.find? fun entry => entry.1 = type).map Prod.snd

def System.setHandler (s : System) (type : String) (handler : JobHandler) : System :=
  { s with handlers := (type, handler) :: s.handlers.filter fun entry => entry.1 ≠ type }

/-- Runs a job that is due with the handler its type has now; the job then counts as executed,
whatever came of it. -/
def System.runJob (s : System) (id : String) : System :=
  match s.engine.jobs.find? fun job => job.id = id ∧ ¬ job.executed ∧ job.due ≤ s.now with
  | none => s
  | some job =>
    let s := match s.handler? job.payload.handlerType with
      | some .watchdog => if s.isAlive then (s.fireWatchdog job.payload.configuration).2 else s
      | some (.other _) => s.note (.jobHandled job.payload.configuration)
      | none => s
    { s with engine := s.engine.markExecuted id }

end TaskLeasing
