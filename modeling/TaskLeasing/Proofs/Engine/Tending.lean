import TaskLeasing.Proofs.Engine.Orderly

namespace TaskLeasing

/-- An engine whose tasks one worker alone has leased, which has stayed available, and which creates
everything under the names that come next. -/
structure Engine.Tended (e : Engine) (names : Naming) (worker : String) : Prop where
  sound : e.Sound none
  available : e.available = true
  task_names : ∀ record ∈ e.tasks, record.task.id = names.task record.sequence
  instance_names : ∀ run ∈ e.instances, ∃ place ≤ e.instances.length, run.id = names.instanceId place
  distinct : ∀ definition ∈ e.definitions, (definition.activities.map Activity.id).Nodup
  owner : ∀ record ∈ e.tasks, ∀ leaser, record.task.worker = some leaser → leaser = worker
  stuck : ∀ record ∈ e.tasks, record.task.retries = some 0 → e.hasOpenIncident record.task.id = true

/-- A call that others may make of a tended engine: it leases nothing, reports no failure, leaves the
engine available, and deploys no definition with two activities of one name. -/
def Operation.Harmless {kind : AnswerKind} : Operation kind → Prop
  | .deploy definition => (definition.activities.map Activity.id).Nodup
  | .setAvailable available => available = true
  | .lease _ => False
  | .failure .. => False
  | _ => True

/-- Whether a call ends a task, if it is accepted. -/
def Operation.Ends (task : String) {kind : AnswerKind} : Operation kind → Prop
  | .complete other _ _ => other = task
  | .businessError other .. => other = task
  | _ => False

/-- Every task there is after a call is one there was, with the worker it had or in the one worker's name,
or comes later in the order of creation. -/
structure Engine.Succeeds (e after : Engine) (worker : String) : Prop where
  sequence : e.sequence ≤ after.sequence
  records : ∀ record ∈ after.tasks, e.sequence < record.sequence ∨ ∃ old ∈ e.tasks, old.SameTask record ∧
    (record.task.worker = old.task.worker ∨ record.task.worker = some worker)

/-- What a harmless call does to the records: they stay or go, or are opened and announced. There are instances
afterwards only if there were some or one is started. -/
structure Reply.Opens {α : Type} (reply : Reply α) (e : Engine) (fresh : FreshNames) (starts : Bool) : Prop where
  sequence : e.sequence ≤ reply.engine.sequence
  instances : reply.engine.instances ≠ [] → e.instances ≠ [] ∨ starts = true
  records : ∀ record ∈ reply.engine.tasks, record ∈ e.tasks ∨ (record.Opened e fresh reply.started ∧
    reply.engine.topic? record.task.definitionKey record.task.activity = some record.task.topic)

/-- A task that a call opened is announced by an activity whose topic is the task's. -/
theorem TaskRecord.Opened.topic {record : TaskRecord} {e : Engine} {fresh : FreshNames}
    {started : List ActivityStarted} (opened : record.Opened e fresh started)
    (distinct : ∀ definition ∈ e.definitions, (definition.activities.map Activity.id).Nodup) :
    e.topic? record.task.definitionKey record.task.activity = some record.task.topic := by
  obtain ⟨definition, activity, deployed, member, idEq, bound⟩ := opened.bound
  have found : definition.find? record.task.activity = some activity := by
    rw [← idEq]
    exact find?_key (distinct definition (List.mem_of_find?_eq_some deployed)) member
  simp [Engine.topic?, deployed, found, bound]

namespace Engine

variable {e : Engine} {names : Naming} {worker : String}

namespace Tended

theorem orderly (tended : e.Tended names worker) : e.Orderly names :=
  ⟨tended.sound, tended.task_names, tended.instance_names⟩

theorem plain (tended : e.Tended names worker) (apart : names.Distinct) (now : Instant) {kind : AnswerKind}
    {operation : Operation kind} (plain : operation.isPlain = true) :
    (e.step now (names.next e) operation).engine.Tended names worker := by
  obtain ⟨_, ordinary, _⟩ := ordinary_step e now (names.next e) plain
  obtain ⟨sound, task_names, instance_names⟩ := tended.orderly.plain apart now plain
  refine ⟨sound, ordinary.available.trans tended.available, task_names, instance_names, ?_, ?_, ?_⟩
  · rw [ordinary.definitions]
    exact tended.distinct
  · intro record member leaser leased
    rcases ordinary.records record member with ⟨old, _⟩ | ⟨opened, _⟩
    · exact tended.owner record old leaser leased
    · rw [opened.unowned] at leased
      cases leased
  · intro record member exhausted
    rcases ordinary.records record member with ⟨old, incidents⟩ | ⟨opened, _⟩
    · exact incidents (tended.stuck record old exhausted)
    · rw [opened.untried] at exhausted
      cases exhausted

theorem deploy (tended : e.Tended names worker) {definition : ProcessDefinition}
    (activities : (definition.activities.map Activity.id).Nodup) :
    (e.deploy definition).Tended names worker := by
  obtain ⟨instances, tasks, sequence, incidents, available⟩ := deploy_rest e definition
  refine ⟨(tended.sound.deploy definition).1, available.trans tended.available, ?_, ?_, ?_, ?_, ?_⟩
  · rw [tasks]
    exact tended.task_names
  · rw [instances]
    exact tended.instance_names
  · intro other member
    unfold Engine.deploy at member
    split at member
    · obtain ⟨old, atOld, rfl⟩ := List.mem_map.mp member
      split
      · exact activities
      · exact tended.distinct old atOld
    · rcases List.mem_append.mp member with old | new
      · exact tended.distinct other old
      · rw [List.mem_singleton.mp new]
        exact activities
  · rw [tasks]
    exact tended.owner
  · simp only [hasOpenIncident, incidents, tasks]
    exact tended.stuck

/-- A harmless call leaves a tended engine tended. -/
theorem harmless (tended : e.Tended names worker) (apart : names.Distinct) (now : Instant) {kind : AnswerKind}
    {operation : Operation kind} (harmless : operation.Harmless) :
    (e.step now (names.next e) operation).engine.Tended names worker := by
  cases operation with
  | deploy definition => exact tended.deploy harmless
  | setAvailable available =>
    exact ⟨tended.sound.of_eq rfl rfl rfl rfl, harmless, tended.task_names, tended.instance_names,
      tended.distinct, tended.owner, tended.stuck⟩
  | lease request => cases harmless
  | failure task worker report => cases harmless
  | _ => exact tended.plain apart now rfl

end Tended

/-- What a lease does to the records: those it takes are handed out with the end of their lock, all others
stay, and if it asks for enough, those that stay did not fit. -/
theorem lease_records (request : LeaseRequest) (sound : e.Sound none) {now expiry : Instant}
    (available : e.available = true) (accepted : deadline now request.lock = .ok expiry)
    (enough : e.tasks.length ≤ request.maxTasks) :
    ∃ tasks, (e.lease now request).result = .ok tasks ∧
      ∀ record ∈ (e.lease now request).engine.tasks,
        (record ∈ e.tasks ∧ record.isLeasable request now = false) ∨
          ∃ old ∈ e.tasks, record = old.lock request.worker expiry ∧
            ∃ leased ∈ tasks, leased.id = record.task.id ∧ leased.lockExpiry = expiry := by
  have all := chosenFor_all enough now
  rw [lease_eq available accepted]
  refine ⟨_, rfl, fun record member => ?_⟩
  obtain ⟨old, atOld, rfl⟩ := List.mem_map.mp member
  cases fits : old.isLeasable request now with
  | true =>
    have chosen : old ∈ e.chosenFor now request := all ▸ List.mem_filter.mpr ⟨atOld, fits⟩
    rw [if_pos (List.mem_map_of_mem chosen)]
    exact .inr ⟨old, atOld, rfl, _, List.mem_map_of_mem chosen, rfl, rfl⟩
  | false =>
    rw [if_neg fun among => ?_]
    · exact .inl ⟨atOld, fits⟩
    · rw [(mem_chosenFor ((sound.chosen_iff atOld).mp among)).2] at fits
      cases fits

/-- What an accepted report of a failure does to the records of its task, and that it does nothing else. -/
theorem reportFailure_records {now : Instant} {fresh task worker : String} {report : FailureReport} :
    ∀ record ∈ (e.reportFailure now fresh task worker report).engine.tasks,
      record ∈ e.tasks ∧ (record.task.id = task →
        (e.reportFailure now fresh task worker report).result ≠ .ok ()) ∨
      ∃ old ∈ e.tasks, ∃ expiry, old.task.id = task ∧ record = old.fail report expiry ∧
        (e.reportFailure now fresh task worker report).result = .ok () ∧ deadline now report.delay = .ok expiry ∧
        (report.retries = 0 →
          (e.reportFailure now fresh task worker report).engine.hasOpenIncident task = true) := by
  intro record member
  cases result : (e.reportFailure now fresh task worker report).result with
  | error reason =>
    rw [reportFailure_refused result] at member
    exact .inl ⟨member, fun _ => by simp⟩
  | ok _ =>
    obtain ⟨expiry, owned, available, accepted, own⟩ := reportFailure_ok result
    have incident := (reportFailure_accepted available accepted own fresh).2.2
    have tasks : (e.reportFailure now fresh task worker report).engine.tasks =
        (e.modifyRecord task fun r => r.fail report expiry).tasks := by
      rw [reportFailure_eq available accepted own]
      split <;> rfl
    rw [tasks] at member
    obtain ⟨old, atOld, rfl⟩ := List.mem_map.mp member
    by_cases same : old.task.id = task
    · rw [if_pos same]
      exact .inr ⟨old, atOld, expiry, same, rfl, rfl, accepted, incident⟩
    · rw [if_neg same]
      exact .inl ⟨atOld, fun same' => absurd same' same⟩

theorem reportFailure_rest {now : Instant} {fresh task worker : String} {report : FailureReport} (id : String) :
    (e.reportFailure now fresh task worker report).engine.available = e.available ∧
      (e.hasOpenIncident id = true →
        (e.reportFailure now fresh task worker report).engine.hasOpenIncident id = true) := by
  cases result : (e.reportFailure now fresh task worker report).result with
  | error reason =>
    rw [reportFailure_refused result]
    exact ⟨rfl, fun isOpen => isOpen⟩
  | ok _ =>
    obtain ⟨expiry, owned, available, accepted, own⟩ := reportFailure_ok result
    rw [reportFailure_eq available accepted own]
    split
    · refine ⟨rfl, fun isOpen => ?_⟩
      simp only [hasOpenIncident, answer, addIncident, modifyRecord, List.any_append, Bool.or_eq_true]
      exact .inl isOpen
    · exact ⟨rfl, fun isOpen => isOpen⟩

namespace Tended

theorem lease (tended : e.Tended names worker) {now expiry : Instant} {request : LeaseRequest}
    (own : request.worker = worker) (accepted : deadline now request.lock = .ok expiry) :
    (e.lease now request).engine.Tended names worker := by
  obtain ⟨change, rewrites⟩ := rewrites_lease e now request
  have sound := tended.sound.rewrites rewrites
  rw [lease_eq tended.available accepted] at sound ⊢
  refine ⟨sound, tended.available, ?_, tended.instance_names, tended.distinct, ?_, ?_⟩
  · intro record member
    obtain ⟨old, atOld, rfl⟩ := List.mem_map.mp member
    split <;> exact tended.task_names old atOld
  · intro record member leaser leased
    obtain ⟨old, atOld, rfl⟩ := List.mem_map.mp member
    split at leased
    · exact (Option.some.inj leased).symm.trans own
    · exact tended.owner old atOld leaser leased
  · intro record member exhausted
    obtain ⟨old, atOld, rfl⟩ := List.mem_map.mp member
    split at exhausted
    · next among =>
      rw [if_pos among]
      exact tended.stuck old atOld exhausted
    · next spared =>
      rw [if_neg spared]
      exact tended.stuck old atOld exhausted

theorem failure (tended : e.Tended names worker) (now : Instant) (fresh task reporter : String)
    (report : FailureReport) : (e.reportFailure now fresh task reporter report).engine.Tended names worker := by
  obtain ⟨change, rewrites⟩ := rewrites_reportFailure e now fresh task reporter report
  have kept := @reportFailure_rest e now fresh task reporter report
  refine ⟨tended.sound.rewrites rewrites, (kept task).1.trans tended.available, ?_, ?_, ?_, ?_, ?_⟩
  · intro record member
    rcases reportFailure_records record member with ⟨old, _⟩ | ⟨old, atOld, expiry, _, rfl, _⟩
    · exact tended.task_names record old
    · exact tended.task_names old atOld
  · rw [rewrites.instances]
    exact tended.instance_names
  · rw [rewrites.definitions]
    exact tended.distinct
  · intro record member leaser leased
    rcases reportFailure_records record member with ⟨old, _⟩ | ⟨old, atOld, expiry, _, rfl, _⟩
    · exact tended.owner record old leaser leased
    · exact tended.owner old atOld leaser leased
  · intro record member exhausted
    rcases reportFailure_records record member with ⟨old, _⟩ | ⟨old, atOld, expiry, same, rfl, _, _, incident⟩
    · exact (kept record.task.id).2 (tended.stuck record old exhausted)
    · have id : (old.fail report expiry).task.id = task := same
      rw [id]
      exact incident (Option.some.inj exhausted)

theorem plain_opens (tended : e.Tended names worker) (now : Instant) (fresh : FreshNames) {kind : AnswerKind}
    {operation : Operation kind} (plain : operation.isPlain = true) :
    (e.step now fresh operation).Opens e fresh operation.isStart := by
  obtain ⟨begun, ordinary, new⟩ := ordinary_step e now fresh plain
  refine ⟨ordinary.sequence, fun some' => ?_, fun record member => ?_⟩
  · rcases new with none' | ⟨_, starts⟩
    · refine .inl fun empty => some' ?_
      have ids := ordinary.instances
      rw [none', List.append_nil, empty, List.map_nil] at ids
      exact List.map_eq_nil_iff.mp ids
    · exact .inr starts
  · rcases ordinary.records record member with ⟨old, _⟩ | ⟨opened, _⟩
    · exact .inl old
    · have topic := opened.topic tended.distinct
      simp only [Engine.topic?, Engine.definition?, ← ordinary.definitions] at topic
      exact .inr ⟨opened, topic⟩

theorem harmless_opens (tended : e.Tended names worker) (now : Instant) (fresh : FreshNames)
    {kind : AnswerKind} {operation : Operation kind} (harmless : operation.Harmless) :
    (e.step now fresh operation).Opens e fresh operation.isStart := by
  cases operation with
  | deploy definition =>
    obtain ⟨instances, tasks, sequence, _, _⟩ := deploy_rest e definition
    refine ⟨Nat.le_of_eq sequence.symm, fun some' => .inl ?_, fun record member => .inl ?_⟩
    · rw [← instances]
      exact some'
    · rw [← tasks]
      exact member
  | setAvailable available => exact ⟨Nat.le_refl _, .inl, fun record member => .inl member⟩
  | lease request => cases harmless
  | failure task worker report => cases harmless
  | _ => exact tended.plain_opens now fresh rfl

theorem harmless_succeeds (tended : e.Tended names worker) (now : Instant) (fresh : FreshNames)
    {kind : AnswerKind} {operation : Operation kind} (harmless : operation.Harmless) :
    e.Succeeds (e.step now fresh operation).engine worker := by
  have opens := tended.harmless_opens now fresh harmless
  refine ⟨opens.sequence, fun record member => ?_⟩
  rcases opens.records record member with old | ⟨opened, _⟩
  · exact .inr ⟨record, old, .refl record, .inl rfl⟩
  · exact .inl (opened.sequence ▸ Nat.lt_succ_self _)

theorem failure_succeeds (e : Engine) (now : Instant) (fresh task reporter worker : String)
    (report : FailureReport) : e.Succeeds (e.reportFailure now fresh task reporter report).engine worker := by
  obtain ⟨change, rewrites⟩ := rewrites_reportFailure e now fresh task reporter report
  refine ⟨Nat.le_of_eq rewrites.sequence.symm, fun record member => ?_⟩
  rcases reportFailure_records record member with ⟨old, _⟩ | ⟨old, atOld, expiry, _, rfl, _⟩
  · exact .inr ⟨record, old, .refl record, .inl rfl⟩
  · exact .inr ⟨old, atOld, old.sameTask_fail report expiry, .inl rfl⟩

theorem lease_succeeds (e : Engine) (now : Instant) (request : LeaseRequest) :
    e.Succeeds (e.lease now request).engine request.worker := by
  cases result : (e.lease now request).result with
  | error reason =>
    rw [lease_refused result]
    exact ⟨Nat.le_refl _, fun record member => .inr ⟨record, member, .refl record, .inl rfl⟩⟩
  | ok tasks =>
    obtain ⟨expiry, available, accepted, _⟩ := lease_ok result
    rw [lease_eq available accepted]
    refine ⟨Nat.le_refl _, fun record member => .inr ?_⟩
    obtain ⟨old, atOld, rfl⟩ := List.mem_map.mp member
    refine ⟨old, atOld, (old.sameTask_lock request.worker expiry).ite, ?_⟩
    split
    · exact .inr rfl
    · exact .inl rfl

end Tended

/-- What is not open before an instance goes on is not open afterwards, unless it is the task to come. -/
theorem not_open_advance {after : Engine} {task id : String} {fresh : FreshNames} (other : fresh.task ≠ task)
    (gone : ∀ record ∈ after.tasks, record.task.id ≠ task) (place : Nat) :
    ∀ record ∈ (after.advance id place fresh.task).engine.tasks, record.task.id ≠ task := by
  intro record member
  rcases (ordinary_advance after id place fresh).records record member with ⟨old, _⟩ | ⟨opened, _⟩
  · exact gone record old
  · rw [opened.id]
    exact other

/-- A task that the engine let a worker end is open no longer. -/
theorem Sound.gone (sound : e.Sound none) (available : e.available = true) {now : Instant} {fresh : FreshNames}
    (new : fresh.NewTo e) {task : String} {operation : Operation .done} (ends : operation.Ends task)
    (accepted : (e.step now fresh operation).result = .ok ()) :
    ∀ record ∈ (e.step now fresh operation).engine.tasks, record.task.id ≠ task := by
  have gone (record : TaskRecord) (member : record ∈ e.tasks.filter fun r => r.task.id ≠ task) :
      record.task.id ≠ task := by simpa using (List.mem_filter.mp member).2
  have owns {worker : String} {record : TaskRecord} (owned : e.ownedRecord task worker = .ok record) :
      record.task.id = task ∧ fresh.task ≠ task := by
    obtain ⟨member, id, _⟩ := ownedRecord_ok owned
    exact ⟨id, fun same => new.tasks record member (id.trans same.symm)⟩
  cases operation with
  | complete other worker vars =>
    cases ends
    change (e.complete fresh.task task worker vars).result = .ok () at accepted
    change ∀ record ∈ (e.complete fresh.task task worker vars).engine.tasks, record.task.id ≠ task
    cases owned : e.ownedRecord task worker with
    | error reason => simp [Engine.complete, available, owned, refuse] at accepted
    | ok record =>
      obtain ⟨rfl, apart⟩ := owns owned
      by_cases refused : record.task.id ∈ e.refusals
      · simp [Engine.complete, available, owned, refused, refuse] at accepted
      · obtain ⟨definition, _, step⟩ := sound.complete_eq available owned refused fresh.task vars
        rw [step]
        exact not_open_advance apart gone _
  | businessError other worker code message vars =>
    cases ends
    change (e.raiseBusinessError fresh.task task worker code vars).result = .ok () at accepted
    change ∀ record ∈ (e.raiseBusinessError fresh.task task worker code vars).engine.tasks, record.task.id ≠ task
    cases owned : e.ownedRecord task worker with
    | error reason => simp [Engine.raiseBusinessError, available, owned, refuse] at accepted
    | ok record =>
      obtain ⟨rfl, apart⟩ := owns owned
      obtain ⟨definition, _, step⟩ := sound.raiseBusinessError_eq available owned fresh.task code vars
      rw [step]
      cases definition.boundary? record.task.activity with
      | none => exact gone
      | some place => exact not_open_advance apart gone place
  | _ => cases ends

end Engine

end TaskLeasing
