import TaskLeasing.Encoding.Process
import TaskLeasing.Encoding.Report
import TaskLeasing.Encoding.Task
import TaskLeasing.Proofs.Fields
import TaskLeasing.Proofs.Timestamp

namespace TaskLeasing

theorem Instant.decode?_encode {t : Instant} (dated : t.Dated) : Instant.decode? t.encode = some t := by
  rw [Instant.decode?, Instant.encode, Json.text?_text, Option.bind_some, Instant.ofStamp?_stamp dated]

theorem Instant.encode_ne_null (t : Instant) : t.encode ≠ .null := by
  rw [Instant.encode]
  exact nofun

/-! Enumerations -/

@[simp] theorem ActivityKind.decode?_encode (kind : ActivityKind) : ActivityKind.decode? kind.encode = some kind := by
  cases kind <;> rfl

theorem Outcome.decode?_encode (outcome : Outcome) : Outcome.decode? outcome.encode = some outcome := by
  cases outcome <;> rfl

theorem Verdict.decode?_encode (verdict : Verdict) : Verdict.decode? verdict.encode = some verdict := by
  cases verdict <;> rfl

@[simp] theorem InstanceState.decode?_encode (state : InstanceState) :
    InstanceState.decode? state.encode = some state := by
  cases state with
  | active => rfl
  | completed => rfl
  | endedByError code =>
    rw [encode, Json.ofFields, orderFields_pair (by decide)]
    simp [decode?, lookupField]

/-! Records: every field is found under its name and read back. -/

@[simp] theorem optional_ofRetries (retries : Option UInt32) :
    optional Json.word32? (some (.ofRetries retries)) = some retries :=
  optional_ofOption (fun own _ => Json.word32?_ofWord32 own) nofun

theorem Activity.decode?_encode (activity : Activity) : Activity.decode? activity.encode = some activity := by
  simp [Activity.decode?, Activity.encode, Json.record?_ofFields]

theorem ProcessDefinition.decode?_encode (definition : ProcessDefinition) :
    ProcessDefinition.decode? definition.encode = some definition := by
  have activities := mapM_map Activity.decode?_encode definition.activities
  simp [ProcessDefinition.decode?, ProcessDefinition.encode, Json.record?_ofFields, activities]

theorem ProcessInstance.decode?_encode (run : ProcessInstance) : ProcessInstance.decode? run.encode = some run := by
  simp [ProcessInstance.decode?, ProcessInstance.encode, Json.record?_ofFields]

theorem ActivityStarted.decode?_encode (event : ActivityStarted) :
    ActivityStarted.decode? event.encode = some event := by
  simp [ActivityStarted.decode?, ActivityStarted.encode, Json.record?_ofFields]

theorem RetryDecision.decode?_encode (decision : RetryDecision) :
    RetryDecision.decode? decision.encode = some decision := by
  simp [RetryDecision.decode?, RetryDecision.encode, Json.record?_ofFields]

theorem Counters.decode?_encode (c : Counters) : Counters.decode? c.encode = some c := by
  simp [Counters.decode?, Counters.encode, Json.record?_ofFields]

theorem FailureReport.decode?_encode (report : FailureReport) : FailureReport.decode? report.encode = some report := by
  simp [FailureReport.decode?, FailureReport.encode, Json.record?_ofFields]

theorem TaskContext.decode?_encode (context : TaskContext) : TaskContext.decode? context.encode = some context := by
  simp [TaskContext.decode?, TaskContext.encode, Json.record?_ofFields]

theorem ResponseContext.decode?_encode (context : ResponseContext) :
    ResponseContext.decode? context.encode = some context := by
  simp [ResponseContext.decode?, ResponseContext.encode, Json.record?_ofFields]

@[simp] theorem JobPayload.decode?_encode (payload : JobPayload) : JobPayload.decode? payload.encode = some payload := by
  simp [JobPayload.decode?, JobPayload.encode, Json.record?_ofFields]

theorem withDefault_some {α : Type} (default : α) (read : Json → Option α) (value : Json) :
    withDefault default read (some value) = read value := by
  rw [withDefault, Option.elim_some]

/-- Settings that are all there are read back over any defaults. -/
theorem Settings.decode?_encode (defaults s : Settings) : Settings.decode? defaults s.encode = some s := by
  have record : s.encode.record? settingNames = some _ := Json.record?_ofFields rfl (by decide)
  simp only [encode, Json.ofFields, Json.record?] at record
  simp [decode?, encode, Json.ofFields, record, withDefault_some]

/-! Records with instants -/

theorem LeasedTask.decode?_encode {task : LeasedTask} (dated : task.lockExpiry.Dated) :
    LeasedTask.decode? task.encode = some task := by
  simp [LeasedTask.decode?, LeasedTask.encode, Json.record?_ofFields, Instant.decode?_encode dated]

theorem ExternalTask.decode?_encode {task : ExternalTask} (dated : ∀ expiry ∈ task.lockExpiry, expiry.Dated) :
    ExternalTask.decode? task.encode = some task := by
  have expiry : optional Instant.decode? (some (.ofOption Instant.encode task.lockExpiry)) = some task.lockExpiry :=
    optional_ofOption (fun own inside => Instant.decode?_encode (dated own inside)) Instant.encode_ne_null
  simp [ExternalTask.decode?, ExternalTask.encode, Json.record?_ofFields, expiry]

theorem Incident.decode?_encode {incident : Incident} (dated : incident.createdAt.Dated) :
    Incident.decode? incident.encode = some incident := by
  simp [Incident.decode?, Incident.encode, Json.record?_ofFields, Instant.decode?_encode dated]

theorem Job.decode?_encode {job : Job} (dated : job.due.Dated) : Job.decode? job.encode = some job := by
  simp [Job.decode?, Job.encode, Json.record?_ofFields, Instant.decode?_encode dated]

/-- Every value that is written for others is read back as it was from the JSON value that it is written as; how that
value is in turn written as a text, which need not keep every number or depth, is no part of it. Instants are read back
if they lie in the years 0 to 9999 and not in a leap second; variables may have any names and values. -/
theorem encoded_read_back :
    (∀ scope, VariableScope.decode? scope.encode = some scope) ∧
    (∀ state, InstanceState.decode? state.encode = some state) ∧
    (∀ kind, ActivityKind.decode? kind.encode = some kind) ∧
    (∀ activity, Activity.decode? activity.encode = some activity) ∧
    (∀ definition, ProcessDefinition.decode? definition.encode = some definition) ∧
    (∀ run, ProcessInstance.decode? run.encode = some run) ∧
    (∀ event, ActivityStarted.decode? event.encode = some event) ∧
    (∀ incident : Incident, incident.createdAt.Dated → Incident.decode? incident.encode = some incident) ∧
    (∀ job : Job, job.due.Dated → Job.decode? job.encode = some job) ∧
    (∀ payload, JobPayload.decode? payload.encode = some payload) ∧
    (∀ task : LeasedTask, task.lockExpiry.Dated → LeasedTask.decode? task.encode = some task) ∧
    (∀ task : ExternalTask, (∀ expiry ∈ task.lockExpiry, expiry.Dated) → ExternalTask.decode? task.encode = some task) ∧
    (∀ report, FailureReport.decode? report.encode = some report) ∧
    (∀ decision, RetryDecision.decode? decision.encode = some decision) ∧
    (∀ context, TaskContext.decode? context.encode = some context) ∧
    (∀ context, ResponseContext.decode? context.encode = some context) ∧
    (∀ counters, Counters.decode? counters.encode = some counters) ∧
    (∀ defaults settings, Settings.decode? defaults settings.encode = some settings) ∧
    (∀ outcome, Outcome.decode? outcome.encode = some outcome) ∧
    (∀ verdict, Verdict.decode? verdict.encode = some verdict) :=
  ⟨VariableScope.decode?_encode, InstanceState.decode?_encode, ActivityKind.decode?_encode, Activity.decode?_encode,
    ProcessDefinition.decode?_encode, ProcessInstance.decode?_encode, ActivityStarted.decode?_encode,
    fun _ => Incident.decode?_encode, fun _ => Job.decode?_encode, JobPayload.decode?_encode,
    fun _ => LeasedTask.decode?_encode, fun _ => ExternalTask.decode?_encode, FailureReport.decode?_encode,
    RetryDecision.decode?_encode, TaskContext.decode?_encode, ResponseContext.decode?_encode, Counters.decode?_encode,
    Settings.decode?_encode, Outcome.decode?_encode, Verdict.decode?_encode⟩

/-- A lease up to a nanosecond of a day of a leap year, and a task that no one has leased. -/
theorem encoded_read_back_leap_day :
    let expiry : Instant := ⟨1709210096000000007, false, by decide, by decide⟩
    let task : LeasedTask := ⟨"t", "order", "money", "i", some "b", "pay", "e", expiry, .empty, some 3⟩
    expiry.stamp = "2024-02-29T12:34:56.000000007Z" ∧ LeasedTask.decode? task.encode = some task ∧
    Incident.decode? (Incident.encode ⟨"n", "i", "t", "pay", "declined", "no answer", expiry, false⟩) =
      some ⟨"n", "i", "t", "pay", "declined", "no answer", expiry, false⟩ ∧
    Job.decode? (Job.encode ⟨"j", expiry, ⟨"timeout", "t|7"⟩, true⟩) = some ⟨"j", expiry, ⟨"timeout", "t|7"⟩, true⟩ ∧
    ExternalTask.decode? (ExternalTask.encode ⟨"t", "order", "money", "i", none, "pay", "e", none, none, none, none⟩) =
      some ⟨"t", "order", "money", "i", none, "pay", "e", none, none, none, none⟩ := by
  intro expiry task
  have dated : expiry.Dated := ⟨rfl, by decide, by decide⟩
  obtain ⟨-, -, -, -, -, -, -, incident, job, -, leased, free, -⟩ := encoded_read_back
  exact ⟨by decide, leased task dated, incident _ dated, job _ dated, free _ (by simp)⟩

end TaskLeasing
