import TaskLeasing.System.Processing

namespace TaskLeasing

/-- Starts on a response: it must answer an open task that is locked and whose registration takes
responses. -/
def System.respond (s : System) (taskId : String) (input : Json) :
    Progress (Except ResponseError Json) × System :=
  let refuse (error : ResponseError) (s : System) : Progress (Except ResponseError Json) × System :=
    (.finished (.error error), s)
  match s.ask (.findTask taskId) with
  | (.error error, s) => refuse (.engine error) s
  | (.ok found, s) => match found.filter ExternalTask.isLocked with
    | none => refuse (.notFound taskId) s
    | some task =>
      let key : RegistrationKey := ⟨task.definitionKey, task.topic⟩
      match s.registry.lookup key with
      | none => refuse (.noRegistration key.text) s
      | some registration => match registration.contract with
        | .sync => refuse (.protocolMismatch taskId registration.key.text) s
        | .async .. =>
          let (call, s) := s.callProcessor none registration s.settings.workerId (.respond task input)
          (.calling call, s)

/-- Leaves what makes up for a refused completion to be run after commit. -/
def System.deferCompensation (s : System) (task : ExternalTask) (worker : String)
    (vars : Variables) (error : EngineError) : System :=
  let s := s.afterCommit "incident" (.compensate task worker vars error)
  { s with counters := s.counters.countOutcome .incident }

/-- Makes up for a refused completion: the variables go to the execution, and an incident records the
refusal. -/
def System.compensate (s : System) (task : ExternalTask) (worker : String) (vars : Variables)
    (error : EngineError) : System :=
  let s :=
    if vars.isEmpty then s
    else match s.ask (.setVariables task.execution vars) with
      | (.ok _, s) => s
      | (.error refusal, s) => s.logError "set_variables" refusal.message task.id
  s.raiseEngineIncident task.id worker error

/-- Goes on with a response when its processor has ended. A result is given back whatever the engine
says to the completion; a business error is delivered to the engine and answered with the result it
carries; any other error goes back to the sender. -/
def System.endRespond (s : System) (call : ProcessorCall) (task : ExternalTask)
    (attempt : Attempt (Json × Variables)) : Except ResponseError Json × System :=
  match attempt.result with
  | .error (.business business) =>
    match s.ask (.businessError task.id call.worker business.code business.message business.vars) with
    | (.error refusal, s) => (.error (.engine refusal), s)
    | (.ok _, s) =>
      (.ok (business.result.getD .null), { s with counters := s.counters.countResponse })
  | .error error => (.error (.processing error), s)
  | .ok (result, vars) =>
    let s := { s with counters := s.counters.countResponse }
    match s.ask (.complete task.id call.worker vars) with
    | (.ok _, s) => (.ok result, s)
    | (.error refusal, s) => (.ok result, s.deferCompensation task call.worker vars refusal)

end TaskLeasing
