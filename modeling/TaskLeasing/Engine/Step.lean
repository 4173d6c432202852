import TaskLeasing.Engine.Operations

namespace TaskLeasing

/-- What a call of the engine gives back. -/
inductive AnswerKind
  | done
  | name
  | tasks
  | task
deriving DecidableEq

abbrev AnswerKind.Value : AnswerKind → Type
  | .done => Unit
  | .name => String
  | .tasks => List LeasedTask
  | .task => Option ExternalTask

/-- The calls of the engine, by what they give back. -/
inductive Operation : AnswerKind → Type
  | deploy (definition : ProcessDefinition) : Operation .done
  | start (definitionKey : String) (businessKey : Option String) (vars : Variables) :
      Operation .name
  | lease (request : LeaseRequest) : Operation .tasks
  | complete (task worker : String) (vars : Variables) : Operation .done
  | businessError (task worker code message : String) (vars : Option Variables) : Operation .done
  | failure (task worker : String) (report : FailureReport) : Operation .done
  | findTask (task : String) : Operation .task
  | setVariables (execution : String) (vars : Variables) : Operation .done
  | scheduleJob (due : Instant) (payload : JobPayload) : Operation .name
  | refuseNextCompletion (task : String) : Operation .done
  | setAvailable (available : Bool) : Operation .done

/-- One call of the engine, at a time and with names for what it may create. -/
def Engine.step (e : Engine) (now : Instant) (fresh : FreshNames) {kind : AnswerKind} :
    Operation kind → Reply kind.Value
  | .deploy definition => (e.deploy definition).answer ()
  | .start key businessKey vars => e.start fresh key businessKey vars
  | .lease request => e.lease now request
  | .complete task worker vars => e.complete fresh.task task worker vars
  | .businessError task worker code _ vars =>
    e.raiseBusinessError fresh.task task worker code vars
  | .failure task worker report => e.reportFailure now fresh.incident task worker report
  | .findTask task => e.findTask task
  | .setVariables execution vars => e.setVariables execution vars
  | .scheduleJob due payload => e.scheduleJob fresh.job due payload
  | .refuseNextCompletion task => (e.refuseNextCompletion task).answer ()
  | .setAvailable available => (e.setAvailable available).answer ()

end TaskLeasing
