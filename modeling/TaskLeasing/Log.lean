namespace TaskLeasing

inductive LogLevel
  | trace
  | debug
  | info
  | warn
  | error
deriving DecidableEq

/-- Greater for graver levels. -/
def LogLevel.rank : LogLevel → Nat
  | .trace => 0
  | .debug => 1
  | .info => 2
  | .warn => 3
  | .error => 4

def LogLevel.name : LogLevel → String
  | .trace => "TRACE"
  | .debug => "DEBUG"
  | .info => "INFO"
  | .warn => "WARN"
  | .error => "ERROR"

/-- The reason that is recorded of a panic that gives none as text. -/
def unexplainedPanic : String := "unknown panic"

/-- The structured records that are written of what happens to tasks and registrations, of errors,
and of actions that panicked. -/
inductive LogRecord
  | task (operation task : String) (topic definitionKey : Option String) (status : String)
      (details : Option String)
  | registry (operation key status : String) (details : Option String)
  | error (component operation error : String) (context : Option String)
  | panic (action reason : String)
deriving DecidableEq

def LogRecord.level : LogRecord → LogLevel
  | .task .. => .info
  | .registry .. => .info
  | .error .. => .error
  | .panic .. => .error

def LogRecord.kind : LogRecord → String
  | .task .. => "task"
  | .registry .. => "registry"
  | .error .. => "error"
  | .panic .. => "panic"

def LogRecord.message : LogRecord → String
  | .task .. => "📋 TASK_OPERATION"
  | .registry .. => "📚 REGISTRY_OPERATION"
  | .error .. => "❌ ERROR"
  | .panic .. => "💥 HOST: Deferred action panicked"

/-- The fields of a record, those without a value left out. -/
def LogRecord.fields (record : LogRecord) : List (String × String) :=
  let all : List (String × Option String) := match record with
    | .task operation taskId topic definitionKey status details =>
      [("operation", some operation), ("external_task_id", some taskId), ("topic", topic),
        ("process_definition_key", definitionKey), ("status", some status), ("details", details)]
    | .registry operation key status details =>
      [("operation", some operation), ("registration_key", some key), ("status", some status),
        ("details", details)]
    | .error component operation reason context =>
      [("component", some component), ("operation", some operation), ("error", some reason),
        ("context", context)]
    | .panic action reason => [("action", some action), ("panic", some reason)]
  all.filterMap fun (name, value) => value.map fun shown => (name, shown)

end TaskLeasing
