import TaskLeasing.Variables

namespace TaskLeasing

inductive ActivityKind
  | serviceTask
  | sendTask
  | messageEvent
  | businessRuleTask
  | manualTask
deriving DecidableEq

/-- Whether an activity of the kind can be bound to a topic. -/
def ActivityKind.supportsTopic : ActivityKind → Bool
  | .manualTask => false
  | _ => true

/-- One activity of a definition, with the topic it waits on and the activity that a business error
in it leads to. -/
structure Activity where
  id : String
  kind : ActivityKind
  topic : Option String
  errorBoundary : Option String
deriving DecidableEq

/-- The topic of the external task that an instance waits for in the activity; without one it passes
through. -/
def Activity.externalTopic (activity : Activity) : Option String :=
  if activity.kind.supportsTopic then activity.topic else none

/-- A process: activities one after the other. -/
structure ProcessDefinition where
  key : String
  activities : List Activity
deriving DecidableEq

def ProcessDefinition.position? (definition : ProcessDefinition) (activity : String) : Option Nat :=
  definition.activities.findIdx? fun a => a.id = activity

def ProcessDefinition.find? (definition : ProcessDefinition) (activity : String) : Option Activity :=
  definition.activities.find? fun a => a.id = activity

/-- Where an instance goes on after an activity. An activity that the definition does not have leads
past its end. -/
def ProcessDefinition.after (definition : ProcessDefinition) (activity : String) : Nat :=
  match definition.position? activity with
  | some position => position + 1
  | none => definition.activities.length

/-- Where a business error in an activity leads, if its boundary is one of the definition's
activities. -/
def ProcessDefinition.boundary? (definition : ProcessDefinition) (activity : String) : Option Nat :=
  ((definition.find? activity).bind Activity.errorBoundary).bind definition.position?

inductive InstanceState
  | active
  | completed
  | endedByError (code : String)
deriving DecidableEq

/-- A run of a definition. The history holds the activities it entered, the last being the current
one while it is active. -/
structure ProcessInstance where
  id : String
  definitionKey : String
  businessKey : Option String
  execution : String
  vars : Variables
  currentActivity : Option String
  state : InstanceState
  history : List String
  businessErrors : List String

def ProcessInstance.isEnded (run : ProcessInstance) : Bool := run.state ≠ .active

/-- An activity that an instance has entered. -/
structure ActivityStarted where
  definitionKey : String
  activity : String
  instanceId : String
deriving DecidableEq

end TaskLeasing
