import TaskLeasing.Proofs.Engine.Records
import TaskLeasing.Proofs.Engine.Walk

namespace TaskLeasing

/-- A record that a call has opened: nobody has leased it yet, and its activity, which is bound to its
topic, is among those that the call announces. -/
structure TaskRecord.Opened (record : TaskRecord) (e : Engine) (fresh : FreshNames)
    (started : List ActivityStarted) : Prop where
  id : record.task.id = fresh.task
  sequence : record.sequence = e.sequence + 1
  unowned : record.task.worker = none
  unlocked : record.task.lockExpiry = none
  untried : record.task.retries = none
  announced : ⟨record.task.definitionKey, record.task.activity, record.task.instanceId⟩ ∈ started
  bound : ∃ definition activity, e.definition? record.task.definitionKey = some definition ∧
    activity ∈ definition.activities ∧ activity.id = record.task.activity ∧
      activity.externalTopic = some record.task.topic

theorem TaskRecord.Opened.of_eq {e after : Engine} {fresh : FreshNames} {record : TaskRecord}
    {started : List ActivityStarted} (opened : record.Opened after fresh started)
    (definitions : after.definitions = e.definitions) (sequence : after.sequence = e.sequence) :
    record.Opened e fresh started where
  id := opened.id
  sequence := sequence ▸ opened.sequence
  unowned := opened.unowned
  unlocked := opened.unlocked
  untried := opened.untried
  announced := opened.announced
  bound := by simpa only [Engine.definition?, definitions] using opened.bound

/-- An engine from which tasks may have been taken, with their incidents resolved. -/
structure Engine.Trims (e after : Engine) : Prop where
  tasks : ∀ record ∈ after.tasks, record ∈ e.tasks
  incidents : ∀ record ∈ after.tasks, e.hasOpenIncident record.task.id = true →
    after.hasOpenIncident record.task.id = true
  sequence : after.sequence = e.sequence
  definitions : after.definitions = e.definitions
  available : after.available = e.available
  instances : after.instances.map ProcessInstance.id = e.instances.map ProcessInstance.id

/-- What comes of a plain call: of the tasks there are, each is kept as it was or ended, and one task at
most is opened. New instances have begun under the names given. -/
structure Reply.Ordinary {α : Type} (reply : Reply α) (e : Engine) (fresh : FreshNames)
    (begun : List String) : Prop where
  records : ∀ record ∈ reply.engine.tasks,
    (record ∈ e.tasks ∧ (e.hasOpenIncident record.task.id = true →
      reply.engine.hasOpenIncident record.task.id = true)) ∨
    (record.Opened e fresh reply.started ∧ reply.engine.sequence = e.sequence + 1)
  sequence : e.sequence ≤ reply.engine.sequence
  definitions : reply.engine.definitions = e.definitions
  available : reply.engine.available = e.available
  instances : reply.engine.instances.map ProcessInstance.id = e.instances.map ProcessInstance.id ++ begun

namespace Engine

variable {e after : Engine} {fresh : FreshNames}

theorem Trims.of_eq (tasks : after.tasks = e.tasks) (incidents : after.incidents = e.incidents)
    (sequence : after.sequence = e.sequence) (definitions : after.definitions = e.definitions)
    (available : after.available = e.available)
    (instances : after.instances.map ProcessInstance.id = e.instances.map ProcessInstance.id) :
    e.Trims after where
  tasks := fun _ member => tasks ▸ member
  incidents := by simp [hasOpenIncident, incidents]
  sequence := sequence
  definitions := definitions
  available := available
  instances := instances

theorem Trims.trans {last : Engine} (first : e.Trims after) (second : after.Trims last) : e.Trims last where
  tasks := fun record member => first.tasks record (second.tasks record member)
  incidents := fun record member isOpen =>
    second.incidents record member (first.incidents record (second.tasks record member) isOpen)
  sequence := second.sequence.trans first.sequence
  definitions := second.definitions.trans first.definitions
  available := second.available.trans first.available
  instances := second.instances.trans first.instances

theorem Trims.modifyInstance (e : Engine) (id : String) (change : ProcessInstance → ProcessInstance)
    (keeps : ∀ run, (change run).id = run.id) : e.Trims (e.modifyInstance id change) :=
  .of_eq rfl rfl rfl rfl rfl (modifyInstance_ids e id keeps)

/-- A task that ends takes its own incidents with it and no others. -/
theorem trims_end (e : Engine) (task : String) : e.Trims ((e.removeTask task).resolveIncidents task) where
  tasks := fun _ member => List.mem_of_mem_filter member
  incidents := by
    intro record member isOpen
    have other : record.task.id ≠ task := by simpa using (List.mem_filter.mp member).2
    simp only [hasOpenIncident, List.any_eq_true] at isOpen ⊢
    obtain ⟨i, atI, names⟩ := isOpen
    have owner : i.task = record.task.id := by simp only [decide_eq_true_eq] at names; exact names.1
    refine ⟨i, List.mem_map.mpr ⟨i, atI, if_neg ?_⟩, names⟩
    rw [owner]
    exact other
  sequence := rfl
  definitions := rfl
  available := rfl
  instances := rfl

/-- A call that changes nothing but what a trim changes opens nothing. -/
theorem Trims.ordinary {α : Type} {reply : Reply α} (trims : e.Trims reply.engine) :
    reply.Ordinary e fresh [] where
  records := fun record member => .inl ⟨trims.tasks record member, trims.incidents record member⟩
  sequence := Nat.le_of_eq trims.sequence.symm
  definitions := trims.definitions
  available := trims.available
  instances := by rw [trims.instances, List.append_nil]

/-- What is ordinary for a trimmed engine is so for the engine itself. -/
theorem Trims.ordinary_after {α : Type} (trims : e.Trims after) {reply : Reply α} {begun : List String}
    (ordinary : reply.Ordinary after fresh begun) : reply.Ordinary e fresh begun where
  records := by
    intro record member
    rcases ordinary.records record member with ⟨kept, incidents⟩ | ⟨opened, next⟩
    · exact .inl ⟨trims.tasks record kept, fun isOpen => incidents (trims.incidents record kept isOpen)⟩
    · exact .inr ⟨opened.of_eq trims.definitions trims.sequence, by rw [next, trims.sequence]⟩
  sequence := trims.sequence ▸ ordinary.sequence
  definitions := ordinary.definitions.trans trims.definitions
  available := ordinary.available.trans trims.available
  instances := by rw [ordinary.instances, trims.instances]

theorem running_ok {id : String} {run : ProcessInstance} {definition : ProcessDefinition}
    (running : e.running id = .ok (run, definition)) :
    e.instance? id = some run ∧ e.definition? run.definitionKey = some definition := by
  unfold Engine.running at running
  cases found : e.instance? id with
  | none => simp [found] at running
  | some other =>
    simp only [found] at running
    cases deployed : e.definition? other.definitionKey with
    | none => simp [deployed] at running
    | some d =>
      simp only [deployed, Except.ok.injEq, Prod.mk.injEq] at running
      obtain ⟨rfl, rfl⟩ := running
      exact ⟨rfl, deployed⟩

theorem ordinary_advance (e : Engine) (id : String) (place : Nat) (fresh : FreshNames) :
    (e.advance id place fresh.task).Ordinary e fresh [] := by
  unfold advance
  cases running : e.running id with
  | error reason => exact Trims.ordinary (.of_eq rfl rfl rfl rfl rfl rfl)
  | ok pair =>
    obtain ⟨run, definition⟩ := pair
    obtain ⟨_, deployed⟩ := running_ok running
    have key := definition?_key deployed
    have moved := Trims.modifyInstance e run.id (fun r => r.goOn (definition.activities.drop place))
      fun _ => rfl
    simp only [walk_engine, walk_started]
    cases waits : waitsIn? (definition.activities.drop place) with
    | none => exact Trims.ordinary moved
    | some target =>
      obtain ⟨activity, topic⟩ := target
      obtain ⟨member, bound, last⟩ := waitsIn?_spec waits
      refine moved.ordinary_after ⟨fun record atRecord => ?_, Nat.le_succ _, rfl, rfl, (List.append_nil _).symm⟩
      · simp only [addTask, List.mem_append, List.mem_singleton] at atRecord
        rcases atRecord with old | rfl
        · exact .inl ⟨old, fun isOpen => isOpen⟩
        · refine .inr ⟨⟨rfl, rfl, rfl, rfl, rfl, ?_, definition, activity, ?_, List.mem_of_mem_drop member, rfl,
            bound⟩, rfl⟩
          · exact List.mem_map.mpr ⟨activity, List.mem_of_getLast? last, rfl⟩
          · simp only [ProcessInstance.openTask, key]
            exact deployed

theorem ordinary_refuse {α : Type} (e : Engine) (error : EngineError) :
    (e.refuse error : Reply α).Ordinary e fresh [] :=
  (Trims.of_eq rfl rfl rfl rfl rfl rfl).ordinary

theorem ordinary_start (e : Engine) (fresh : FreshNames) (key : String) (businessKey : Option String)
    (vars : Variables) : ∃ begun, (e.start fresh key businessKey vars).Ordinary e fresh begun ∧
      (begun = [] ∨ begun = [fresh.instanceId]) := by
  unfold start
  split
  · exact ⟨[], ordinary_refuse e _, .inl rfl⟩
  · split
    · exact ⟨[], ordinary_refuse e _, .inl rfl⟩
    · have further := ordinary_advance (e.addInstance ⟨fresh.instanceId, key, businessKey, fresh.execution,
        vars, none, .active, [], []⟩) fresh.instanceId 0 fresh
      refine ⟨[fresh.instanceId], ⟨fun record member => ?_, further.sequence, further.definitions,
        further.available, ?_⟩, .inr rfl⟩
      · rcases further.records record member with kept | ⟨opened, next⟩
        · exact .inl kept
        · exact .inr ⟨opened.of_eq rfl rfl, next⟩
      · rw [further.instances]
        simp [addInstance]

theorem ordinary_complete (e : Engine) (fresh : FreshNames) (task worker : String) (vars : Variables) :
    (e.complete fresh.task task worker vars).Ordinary e fresh [] := by
  unfold complete
  split
  · exact ordinary_refuse e _
  · cases e.ownedRecord task worker with
    | error reason => exact ordinary_refuse e reason
    | ok record =>
      simp only
      split
      · exact Trims.ordinary (.of_eq rfl rfl rfl rfl rfl rfl)
      · have ends : e.Trims (((e.removeTask task).resolveIncidents task).recordCompletion task vars) :=
          (trims_end e task).trans (.of_eq rfl rfl rfl rfl rfl rfl)
        split
        · exact Trims.ordinary ends
        · refine Trims.ordinary_after ?_ (ordinary_advance _ _ _ _)
          exact ends.trans (.modifyInstance _ _ _ fun _ => rfl)

theorem ordinary_raiseBusinessError (e : Engine) (fresh : FreshNames) (task worker code : String)
    (vars : Option Variables) : (e.raiseBusinessError fresh.task task worker code vars).Ordinary e fresh [] := by
  unfold raiseBusinessError
  split
  · exact ordinary_refuse e _
  · cases e.ownedRecord task worker with
    | error reason => exact ordinary_refuse e reason
    | ok record =>
      simp only
      split
      · exact Trims.ordinary (trims_end e task)
      · split
        · refine Trims.ordinary_after ?_ (ordinary_advance _ _ _ _)
          exact (trims_end e task).trans (.modifyInstance _ _ _ fun _ => rfl)
        · refine Trims.ordinary (Trims.trans (Trims.trans (trims_end e task) ?_)
            (.modifyInstance _ _ _ fun _ => rfl))
          exact .modifyInstance _ _ _ fun _ => rfl

theorem ordinary_setVariables (e : Engine) (execution : String) (vars : Variables) :
    (e.setVariables execution vars).Ordinary e fresh [] := by
  unfold setVariables
  split
  · exact ordinary_refuse e _
  · split
    · exact ordinary_refuse e _
    · exact Trims.ordinary (.modifyInstance _ _ _ fun _ => rfl)

end Engine

/-- Whether a call neither writes into records of open tasks, nor deploys, nor switches the engine. -/
def Operation.isPlain {kind : AnswerKind} : Operation kind → Bool
  | .deploy _ => false
  | .lease _ => false
  | .failure .. => false
  | .setAvailable _ => false
  | _ => true

/-- Whether a call asks for a new instance. -/
def Operation.isStart {kind : AnswerKind} : Operation kind → Bool
  | .start .. => true
  | _ => false

theorem Engine.ordinary_step (e : Engine) (now : Instant) (fresh : FreshNames) {kind : AnswerKind}
    {operation : Operation kind} (plain : operation.isPlain = true) :
    ∃ begun, (e.step now fresh operation).Ordinary e fresh begun ∧
      (begun = [] ∨ begun = [fresh.instanceId] ∧ operation.isStart = true) := by
  cases operation with
  | deploy definition => cases plain
  | lease request => cases plain
  | failure task worker report => cases plain
  | setAvailable available => cases plain
  | start key businessKey vars =>
    obtain ⟨begun, ordinary, named⟩ := ordinary_start e fresh key businessKey vars
    exact ⟨begun, ordinary, named.imp_right fun begun => ⟨begun, rfl⟩⟩
  | complete task worker vars => exact ⟨[], ordinary_complete e fresh task worker vars, .inl rfl⟩
  | businessError task worker code message vars =>
    exact ⟨[], ordinary_raiseBusinessError e fresh task worker code vars, .inl rfl⟩
  | setVariables execution vars => exact ⟨[], ordinary_setVariables e execution vars, .inl rfl⟩
  | findTask task =>
    refine ⟨[], ?_, .inl rfl⟩
    change (e.findTask task).Ordinary e fresh []
    unfold Engine.findTask
    split <;> exact Trims.ordinary (.of_eq rfl rfl rfl rfl rfl rfl)
  | scheduleJob due payload =>
    refine ⟨[], ?_, .inl rfl⟩
    change (e.scheduleJob fresh.job due payload).Ordinary e fresh []
    unfold Engine.scheduleJob
    split <;> exact Trims.ordinary (.of_eq rfl rfl rfl rfl rfl rfl)
  | refuseNextCompletion task =>
    refine ⟨[], ?_, .inl rfl⟩
    change ((e.refuseNextCompletion task).answer ()).Ordinary e fresh []
    unfold Engine.refuseNextCompletion
    split <;> exact Trims.ordinary (.of_eq rfl rfl rfl rfl rfl rfl)

/-- A task that a plain call opens is announced. -/
theorem Engine.announced_opened (e : Engine) (now : Instant) (fresh : FreshNames) {kind : AnswerKind}
    {operation : Operation kind} (plain : operation.isPlain = true) {record : TaskRecord}
    (member : record ∈ (e.step now fresh operation).engine.tasks) (absent : record ∉ e.tasks) :
    ⟨record.task.definitionKey, record.task.activity, record.task.instanceId⟩ ∈
      (e.step now fresh operation).started := by
  obtain ⟨_, ordinary, _⟩ := e.ordinary_step now fresh plain
  rcases ordinary.records record member with ⟨old, _⟩ | ⟨opened, _⟩
  · exact absurd old absent
  · exact opened.announced

end TaskLeasing
