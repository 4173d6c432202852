import TaskLeasing.Encoding.Fields
import TaskLeasing.Task

namespace TaskLeasing

def Json.ofRetries (retries : Option UInt32) : Json := .ofOption Json.ofWord32 retries

def LeasedTask.encode (task : LeasedTask) : Json :=
  .ofFields [("id", .text task.id), ("process_definition_key", .text task.definitionKey),
    ("topic", .text task.topic), ("process_instance_id", .text task.instanceId),
    ("business_key", .ofText? task.businessKey), ("activity_id", .text task.activity),
    ("execution_id", .text task.execution), ("lock_expiration", task.lockExpiry.encode),
    ("variables", task.vars.encode), ("retries", .ofRetries task.retries)]

def LeasedTask.decode? (value : Json) : Option LeasedTask :=
  match value.record? ["id", "process_definition_key", "topic", "process_instance_id", "business_key",
      "activity_id", "execution_id", "lock_expiration", "variables", "retries"] with
  | some [id, definitionKey, topic, instanceId, businessKey, activity, execution, expiry, vars,
      retries] => do
    some ⟨← required Json.text? id, ← required Json.text? definitionKey, ← required Json.text? topic,
      ← required Json.text? instanceId, ← optional Json.text? businessKey,
      ← required Json.text? activity, ← required Json.text? execution,
      ← required Instant.decode? expiry, ← required Variables.decode? vars,
      ← optional Json.word32? retries⟩
  | _ => none

def ExternalTask.encode (task : ExternalTask) : Json :=
  .ofFields [("id", .text task.id), ("process_definition_key", .text task.definitionKey),
    ("topic", .text task.topic), ("process_instance_id", .text task.instanceId),
    ("business_key", .ofText? task.businessKey), ("activity_id", .text task.activity),
    ("execution_id", .text task.execution), ("worker_id", .ofText? task.worker),
    ("lock_expiration", .ofOption Instant.encode task.lockExpiry), ("retries", .ofRetries task.retries),
    ("error_message", .ofText? task.errorMessage)]

def ExternalTask.decode? (value : Json) : Option ExternalTask :=
  match value.record? ["id", "process_definition_key", "topic", "process_instance_id", "business_key",
      "activity_id", "execution_id", "worker_id", "lock_expiration", "retries", "error_message"] with
  | some [id, definitionKey, topic, instanceId, businessKey, activity, execution, worker, expiry,
      retries, message] => do
    some ⟨← required Json.text? id, ← required Json.text? definitionKey, ← required Json.text? topic,
      ← required Json.text? instanceId, ← optional Json.text? businessKey,
      ← required Json.text? activity, ← required Json.text? execution, ← optional Json.text? worker,
      ← optional Instant.decode? expiry, ← optional Json.word32? retries,
      ← optional Json.text? message⟩
  | _ => none

def TaskContext.encode (context : TaskContext) : Json :=
  .ofFields [("external_task_id", .text context.task),
    ("process_definition_key", .text context.definitionKey), ("topic", .text context.topic),
    ("process_instance_id", .text context.instanceId), ("business_key", .ofText? context.businessKey),
    ("activity_id", .text context.activity), ("execution_id", .text context.execution),
    ("variables", context.vars.encode), ("retries", .ofRetries context.retries)]

def TaskContext.decode? (value : Json) : Option TaskContext :=
  match value.record? ["external_task_id", "process_definition_key", "topic", "process_instance_id",
      "business_key", "activity_id", "execution_id", "variables", "retries"] with
  | some [task, definitionKey, topic, instanceId, businessKey, activity, execution, vars,
      retries] => do
    some ⟨← required Json.text? task, ← required Json.text? definitionKey, ← required Json.text? topic,
      ← required Json.text? instanceId, ← optional Json.text? businessKey,
      ← required Json.text? activity, ← required Json.text? execution,
      ← required Variables.decode? vars, ← optional Json.word32? retries⟩
  | _ => none

def ResponseContext.encode (context : ResponseContext) : Json :=
  .ofFields [("correlation_id", .text context.task), ("process_instance_id", .text context.instanceId),
    ("business_key", .ofText? context.businessKey), ("activity_id", .text context.activity),
    ("execution_id", .text context.execution), ("retries", .ofRetries context.retries)]

def ResponseContext.decode? (value : Json) : Option ResponseContext :=
  match value.record? ["correlation_id", "process_instance_id", "business_key", "activity_id",
      "execution_id", "retries"] with
  | some [task, instanceId, businessKey, activity, execution, retries] => do
    some ⟨← required Json.text? task, ← required Json.text? instanceId, ← optional Json.text? businessKey,
      ← required Json.text? activity, ← required Json.text? execution, ← optional Json.word32? retries⟩
  | _ => none

def FailureReport.encode (report : FailureReport) : Json :=
  .ofFields [("error_message", .text report.message), ("error_details", .text report.details),
    ("retries", .ofWord32 report.retries), ("retry_delay", report.delay.encode)]

def FailureReport.decode? (value : Json) : Option FailureReport :=
  match value.record? ["error_message", "error_details", "retries", "retry_delay"] with
  | some [message, details, retries, delay] => do
    some ⟨← required Json.text? message, ← required Json.text? details,
      ← required Json.word32? retries, ← required Span.decode? delay⟩
  | _ => none

def Incident.encode (incident : Incident) : Json :=
  .ofFields [("id", .text incident.id), ("process_instance_id", .text incident.instanceId),
    ("external_task_id", .text incident.task), ("activity_id", .text incident.activity),
    ("message", .text incident.message), ("details", .text incident.details),
    ("created_at", incident.createdAt.encode), ("resolved", .bool incident.resolved)]

def Incident.decode? (value : Json) : Option Incident :=
  match value.record? ["id", "process_instance_id", "external_task_id", "activity_id", "message",
      "details", "created_at", "resolved"] with
  | some [id, instanceId, task, activity, message, details, createdAt, resolved] => do
    some ⟨← required Json.text? id, ← required Json.text? instanceId, ← required Json.text? task,
      ← required Json.text? activity, ← required Json.text? message, ← required Json.text? details,
      ← required Instant.decode? createdAt, ← required Json.bool? resolved⟩
  | _ => none

def JobPayload.encode (payload : JobPayload) : Json :=
  .ofFields [("handler_type", .text payload.handlerType), ("configuration", .text payload.configuration)]

def JobPayload.decode? (value : Json) : Option JobPayload :=
  match value.record? ["handler_type", "configuration"] with
  | some [type, configuration] => do
    some ⟨← required Json.text? type, ← required Json.text? configuration⟩
  | _ => none

def Job.encode (job : Job) : Json :=
  .ofFields [("id", .text job.id), ("due", job.due.encode), ("payload", job.payload.encode),
    ("executed", .bool job.executed)]

def Job.decode? (value : Json) : Option Job :=
  match value.record? ["id", "due", "payload", "executed"] with
  | some [id, due, payload, executed] => do
    some ⟨← required Json.text? id, ← required Instant.decode? due,
      ← required JobPayload.decode? payload, ← required Json.bool? executed⟩
  | _ => none

end TaskLeasing
