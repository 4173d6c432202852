import TaskLeasing.Engine.Step
import Mathlib.Data.List.Basic

namespace TaskLeasing

/-- Two records of one task. What a worker or a failure writes into it may differ. -/
structure TaskRecord.SameTask (a b : TaskRecord) : Prop where
  id : b.task.id = a.task.id
  definitionKey : b.task.definitionKey = a.task.definitionKey
  topic : b.task.topic = a.task.topic
  instanceId : b.task.instanceId = a.task.instanceId
  businessKey : b.task.businessKey = a.task.businessKey
  activity : b.task.activity = a.task.activity
  execution : b.task.execution = a.task.execution
  sequence : b.sequence = a.sequence

theorem TaskRecord.SameTask.refl (record : TaskRecord) : record.SameTask record :=
  ⟨rfl, rfl, rfl, rfl, rfl, rfl, rfl, rfl⟩

theorem TaskRecord.SameTask.ite {record other : TaskRecord} {p : Prop} [Decidable p]
    (same : record.SameTask other) : record.SameTask (if p then other else record) := by
  split
  · exact same
  · exact .refl record

theorem TaskRecord.sameTask_lock (record : TaskRecord) (worker : String) (expiry : Instant) :
    record.SameTask (record.lock worker expiry) := ⟨rfl, rfl, rfl, rfl, rfl, rfl, rfl, rfl⟩

/-- A record after an accepted report of a failure. -/
def TaskRecord.fail (record : TaskRecord) (report : FailureReport) (expiry : Instant) : TaskRecord :=
  { record with
    task := { record.task with
      retries := some report.retries
      errorMessage := some report.message
      lockExpiry := some expiry }
    errorDetails := some report.details }

theorem TaskRecord.sameTask_fail (record : TaskRecord) (report : FailureReport) (expiry : Instant) :
    record.SameTask (record.fail report expiry) := ⟨rfl, rfl, rfl, rfl, rfl, rfl, rfl, rfl⟩

theorem TaskRecord.isLeasable_iff {record : TaskRecord} {request : LeaseRequest} {now : Instant} :
    record.isLeasable request now = true ↔ record.task.topic = request.topic ∧
      request.definitionKey.all (· = record.task.definitionKey) = true ∧ record.task.retries ≠ some 0 ∧
        record.task.lockExpiry.all (· ≤ now) = true := by
  simp only [TaskRecord.isLeasable, decide_eq_true_eq]

namespace Engine

variable {e : Engine}

theorem ownedRecord_ok {task worker : String} {record : TaskRecord}
    (owned : e.ownedRecord task worker = .ok record) :
    record ∈ e.tasks ∧ record.task.id = task ∧ record.task.worker = some worker := by
  unfold ownedRecord at owned
  cases found : e.record? task with
  | none => simp [found] at owned
  | some other =>
    simp only [found] at owned
    split at owned
    · cases owned
      exact ⟨List.mem_of_find?_eq_some found, by simpa using List.find?_some found, by assumption⟩
    · cases owned

/-- An engine with a change of some of its records. -/
def mapRecords (e : Engine) (change : TaskRecord → TaskRecord) : Engine :=
  { e with tasks := e.tasks.map change }

theorem modifyRecord_eq (e : Engine) (task : String) (change : TaskRecord → TaskRecord) :
    e.modifyRecord task change =
      e.mapRecords fun record => if record.task.id = task then change record else record := rfl

/-- Records locked one after the other are locked at once. -/
theorem foldl_lock (chosen : List TaskRecord) (worker : String) (expiry : Instant) (e : Engine) :
    chosen.foldl (fun e record => e.modifyRecord record.task.id fun r => r.lock worker expiry) e =
      e.mapRecords fun record =>
        if record.task.id ∈ chosen.map (fun r => r.task.id) then record.lock worker expiry else record := by
  induction chosen generalizing e with
  | nil => simp [mapRecords]
  | cons first rest ih =>
    rw [List.foldl_cons, ih, modifyRecord_eq]
    simp only [mapRecords, List.map_map, Engine.mk.injEq, true_and, and_true]
    refine List.map_congr_left fun record _ => ?_
    by_cases same : record.task.id = first.task.id
    · simp only [Function.comp_apply, same, if_true, List.map_cons, List.mem_cons, true_or]
      split <;> rfl
    · simp only [Function.comp_apply, same, if_false, List.map_cons, List.mem_cons, false_or]

/-- While the engine is switched off it changes nothing; what it decides on otherwise is left to the rest. -/
theorem guarded_refused {α : Type} {rest : Reply α} {reason : EngineError}
    (decided : rest.result = .error reason → rest = e.refuse reason)
    (refused : (if ¬ e.available then e.refuse switchedOff else rest).result = .error reason) :
    (if ¬ e.available then e.refuse switchedOff else rest) = e.refuse reason := by
  by_cases available : e.available = true
  · simp only [available, not_true_eq_false, if_false] at refused ⊢
    exact decided refused
  · simp only [available, Bool.false_eq_true, not_false_eq_true, if_true] at refused ⊢
    cases refused
    rfl

/-- The records that a lease takes. -/
def chosenFor (e : Engine) (now : Instant) (request : LeaseRequest) : List TaskRecord :=
  (e.tasks.filter fun record => record.isLeasable request now).take request.maxTasks

theorem mem_chosenFor {now : Instant} {request : LeaseRequest} {record : TaskRecord}
    (chosen : record ∈ e.chosenFor now request) :
    record ∈ e.tasks ∧ record.isLeasable request now = true :=
  List.mem_filter.mp (List.mem_of_mem_take chosen)

/-- A lease for enough tasks takes all that fit. -/
theorem chosenFor_all {request : LeaseRequest} (enough : e.tasks.length ≤ request.maxTasks) (now : Instant) :
    e.chosenFor now request = e.tasks.filter fun record => record.isLeasable request now :=
  List.take_of_length_le (Nat.le_trans (List.length_filter_le _ _) enough)

/-- A task as a request of its leasing hands it out. -/
def handOver (e : Engine) (request : LeaseRequest) (expiry : Instant) (record : TaskRecord) : LeasedTask :=
  record.task.leased expiry
    (((e.instance? record.task.instanceId).map fun run => request.vars.select run.vars).getD .empty)

theorem lease_eq (available : e.available = true) {now expiry : Instant} {request : LeaseRequest}
    (accepted : deadline now request.lock = .ok expiry) :
    e.lease now request =
      (e.mapRecords fun record =>
        if record.task.id ∈ (e.chosenFor now request).map (fun r => r.task.id) then
          record.lock request.worker expiry
        else record).answer ((e.chosenFor now request).map (e.handOver request expiry)) := by
  unfold lease
  simp only [available, not_true_eq_false, if_false, accepted, foldl_lock]
  rfl

/-- A lease that was answered: the engine was available and the lock's end within the calendar. -/
theorem lease_ok {now : Instant} {request : LeaseRequest} {tasks : List LeasedTask}
    (answered : (e.lease now request).result = .ok tasks) :
    ∃ expiry, e.available = true ∧ deadline now request.lock = .ok expiry ∧
      tasks = (e.chosenFor now request).map (e.handOver request expiry) := by
  by_cases available : e.available = true
  · cases accepted : deadline now request.lock with
    | error reason => simp [lease, available, accepted, refuse] at answered
    | ok expiry =>
      rw [lease_eq available accepted] at answered
      exact ⟨expiry, available, rfl, (Except.ok.inj answered).symm⟩
  · simp [lease, available, refuse] at answered

/-- A lease decides on the request before it locks the first task. -/
theorem lease_refused_at_once {now : Instant} {request : LeaseRequest} {reason : EngineError}
    (refused : (e.lease now request).result = .error reason) : e.lease now request = e.refuse reason := by
  unfold lease at refused ⊢
  refine guarded_refused (fun refused => ?_) refused
  cases accepted : deadline now request.lock with
  | error outOfRange =>
    simp only [accepted] at refused
    cases refused
    rfl
  | ok expiry =>
    simp only [accepted] at refused
    cases refused

theorem lease_refused {now : Instant} {request : LeaseRequest} {reason : EngineError}
    (refused : (e.lease now request).result = .error reason) : (e.lease now request).engine = e := by
  rw [lease_refused_at_once refused]
  rfl

/-- What an accepted report of a failure does: the record keeps the failure, and an incident is open if
no retries are left. -/
theorem reportFailure_eq (available : e.available = true) {now expiry : Instant} {report : FailureReport}
    (accepted : deadline now report.delay = .ok expiry) {task worker : String} {record : TaskRecord}
    (owned : e.ownedRecord task worker = .ok record) (fresh : String) :
    e.reportFailure now fresh task worker report =
      (if report.retries = 0 ∧ ¬ e.hasOpenIncident task then
        (e.modifyRecord task fun r => r.fail report expiry).addIncident
          ⟨fresh, record.task.instanceId, task, record.task.activity, report.message, report.details, now,
            false⟩
      else e.modifyRecord task fun r => r.fail report expiry).answer () := by
  unfold reportFailure
  simp only [available, not_true_eq_false, if_false, accepted, owned]
  -- the report changes no incident before it looks for an open one
  by_cases raised : report.retries = 0 ∧ ¬ e.hasOpenIncident task
  · rw [if_pos raised]
    exact if_pos raised
  · rw [if_neg raised]
    exact if_neg raised

/-- A report that nothing stands against is accepted, and one that leaves no retries leaves an incident
open. -/
theorem reportFailure_accepted (available : e.available = true) {now expiry : Instant} {report : FailureReport}
    (accepted : deadline now report.delay = .ok expiry) {task worker : String} {record : TaskRecord}
    (owned : e.ownedRecord task worker = .ok record) (fresh : String) :
    (e.reportFailure now fresh task worker report).result = .ok () ∧
      (e.reportFailure now fresh task worker report).started = [] ∧
      (report.retries = 0 → (e.reportFailure now fresh task worker report).engine.hasOpenIncident task) := by
  rw [reportFailure_eq available accepted owned]
  refine ⟨rfl, rfl, fun terminal => ?_⟩
  by_cases isOpen : e.hasOpenIncident task = true
  · rw [if_neg fun raised => raised.2 isOpen]
    exact isOpen
  · rw [if_pos ⟨terminal, isOpen⟩]
    simp [hasOpenIncident, answer, addIncident, List.any_append]

theorem reportFailure_ok {now : Instant} {fresh task worker : String} {report : FailureReport}
    (answered : (e.reportFailure now fresh task worker report).result = .ok ()) :
    ∃ expiry record, e.available = true ∧ deadline now report.delay = .ok expiry ∧
      e.ownedRecord task worker = .ok record := by
  by_cases available : e.available = true
  · cases accepted : deadline now report.delay with
    | error reason => simp [reportFailure, available, accepted, refuse] at answered
    | ok expiry =>
      cases owned : e.ownedRecord task worker with
      | error reason => simp [reportFailure, available, accepted, owned, refuse] at answered
      | ok record => exact ⟨expiry, record, available, rfl, rfl⟩
  · simp [reportFailure, available, refuse] at answered

/-- A report of a failure is decided on before the record of the task is touched. -/
theorem reportFailure_refused_at_once {now : Instant} {fresh task worker : String} {report : FailureReport}
    {reason : EngineError}
    (refused : (e.reportFailure now fresh task worker report).result = .error reason) :
    e.reportFailure now fresh task worker report = e.refuse reason := by
  unfold reportFailure at refused ⊢
  refine guarded_refused (fun refused => ?_) refused
  cases accepted : deadline now report.delay with
  | error outOfRange =>
    simp only [accepted] at refused
    cases refused
    rfl
  | ok expiry =>
    cases owned : e.ownedRecord task worker with
    | error barred =>
      simp only [accepted, owned] at refused
      cases refused
      rfl
    | ok record =>
      simp only [accepted, owned] at refused
      split at refused <;> cases refused

theorem reportFailure_refused {now : Instant} {fresh task worker : String} {report : FailureReport}
    {reason : EngineError}
    (refused : (e.reportFailure now fresh task worker report).result = .error reason) :
    (e.reportFailure now fresh task worker report).engine = e := by
  rw [reportFailure_refused_at_once refused]
  rfl

/-- What comes of a call that writes into the records of open tasks: each record stays one of its task,
and instances and definitions are left alone. -/
structure Rewrites (e after : Engine) (change : TaskRecord → TaskRecord) : Prop where
  keeps : ∀ record : TaskRecord, record.SameTask (change record)
  tasks : after.tasks = e.tasks.map change
  instances : after.instances = e.instances
  definitions : after.definitions = e.definitions
  sequence : after.sequence = e.sequence

theorem Rewrites.refl (e : Engine) : e.Rewrites e fun record => record :=
  ⟨TaskRecord.SameTask.refl, by simp, rfl, rfl, rfl⟩

theorem rewrites_lease (e : Engine) (now : Instant) (request : LeaseRequest) :
    ∃ change, e.Rewrites (e.lease now request).engine change := by
  cases result : (e.lease now request).result with
  | error reason =>
    rw [lease_refused result]
    exact ⟨_, .refl e⟩
  | ok tasks =>
    obtain ⟨expiry, available, accepted, _⟩ := lease_ok result
    rw [lease_eq available accepted]
    exact ⟨_, fun record => (record.sameTask_lock request.worker expiry).ite, rfl, rfl, rfl, rfl⟩

theorem rewrites_reportFailure (e : Engine) (now : Instant) (fresh task worker : String)
    (report : FailureReport) :
    ∃ change, e.Rewrites (e.reportFailure now fresh task worker report).engine change := by
  cases result : (e.reportFailure now fresh task worker report).result with
  | error reason =>
    rw [reportFailure_refused result]
    exact ⟨_, .refl e⟩
  | ok _ =>
    obtain ⟨expiry, record, available, accepted, owned⟩ := reportFailure_ok result
    rw [reportFailure_eq available accepted owned]
    have keeps (record : TaskRecord) :
        record.SameTask (if record.task.id = task then record.fail report expiry else record) :=
      (record.sameTask_fail report expiry).ite
    split <;> exact ⟨_, keeps, rfl, rfl, rfl, rfl⟩

end Engine

end TaskLeasing
