import TaskLeasing.Encoding.Fields
import TaskLeasing.Process

namespace TaskLeasing

def activityKinds : List (String × ActivityKind) :=
  [("service_task", .serviceTask), ("send_task", .sendTask), ("message_event", .messageEvent),
    ("business_rule_task", .businessRuleTask), ("manual_task", .manualTask)]

def ActivityKind.name : ActivityKind → String
  | .serviceTask => "service_task"
  | .sendTask => "send_task"
  | .messageEvent => "message_event"
  | .businessRuleTask => "business_rule_task"
  | .manualTask => "manual_task"

def ActivityKind.encode (kind : ActivityKind) : Json := .text kind.name

def ActivityKind.decode? (value : Json) : Option ActivityKind := value.choice? activityKinds

def Activity.encode (activity : Activity) : Json :=
  .ofFields [("id", .text activity.id), ("kind", activity.kind.encode),
    ("topic", .ofText? activity.topic), ("error_boundary", .ofText? activity.errorBoundary)]

def Activity.decode? (value : Json) : Option Activity :=
  match value.record? ["id", "kind", "topic", "error_boundary"] with
  | some [id, kind, topic, boundary] => do
    some ⟨← required Json.text? id, ← required ActivityKind.decode? kind, ← optional Json.text? topic,
      ← optional Json.text? boundary⟩
  | _ => none

def ProcessDefinition.encode (definition : ProcessDefinition) : Json :=
  .ofFields [("key", .text definition.key),
    ("activities", .list (definition.activities.map Activity.encode))]

def ProcessDefinition.decode? (value : Json) : Option ProcessDefinition :=
  match value.record? ["key", "activities"] with
  | some [key, activities] => do
    some ⟨← required Json.text? key,
      ← required (fun items => items.list?.bind (List.mapM Activity.decode?)) activities⟩
  | _ => none

def InstanceState.encode : InstanceState → Json
  | .active => .ofFields [("state", .text "active")]
  | .completed => .ofFields [("state", .text "completed")]
  | .endedByError code => .ofFields [("state", .text "ended_by_error"), ("error_code", .text code)]

/-- An object whose field `state` names the state, or a list that starts with the name. -/
def InstanceState.decode? : Json → Option InstanceState
  | .object fields => match lookupField "state" fields with
    | some (.text "active") => some .active
    | some (.text "completed") => some .completed
    | some (.text "ended_by_error") =>
      (required Json.text? (lookupField "error_code" fields)).map .endedByError
    | _ => none
  | .list [.text "active"] => some .active
  | .list [.text "completed"] => some .completed
  | .list [.text "ended_by_error", .text code] => some (.endedByError code)
  | _ => none

def ProcessInstance.encode (run : ProcessInstance) : Json :=
  .ofFields [("id", .text run.id), ("definition_key", .text run.definitionKey),
    ("business_key", .ofText? run.businessKey), ("execution_id", .text run.execution),
    ("variables", run.vars.encode), ("current_activity", .ofText? run.currentActivity),
    ("state", run.state.encode), ("history", .ofTexts run.history),
    ("business_errors", .ofTexts run.businessErrors)]

def ProcessInstance.decode? (value : Json) : Option ProcessInstance :=
  match value.record? ["id", "definition_key", "business_key", "execution_id", "variables",
      "current_activity", "state", "history", "business_errors"] with
  | some [id, definitionKey, businessKey, execution, vars, current, state, history, errors] => do
    some ⟨← required Json.text? id, ← required Json.text? definitionKey,
      ← optional Json.text? businessKey, ← required Json.text? execution,
      ← required Variables.decode? vars, ← optional Json.text? current,
      ← required InstanceState.decode? state, ← required Json.texts? history,
      ← required Json.texts? errors⟩
  | _ => none

def ActivityStarted.encode (event : ActivityStarted) : Json :=
  .ofFields [("process_definition_key", .text event.definitionKey),
    ("activity_id", .text event.activity), ("process_instance_id", .text event.instanceId)]

def ActivityStarted.decode? (value : Json) : Option ActivityStarted :=
  match value.record? ["process_definition_key", "activity_id", "process_instance_id"] with
  | some [definitionKey, activity, instanceId] => do
    some ⟨← required Json.text? definitionKey, ← required Json.text? activity,
      ← required Json.text? instanceId⟩
  | _ => none

end TaskLeasing
