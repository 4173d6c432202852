import TaskLeasing.Proofs.Engine.Runs
import TaskLeasing.Proofs.Engine.Walk
import TaskLeasing.Proofs.Keyed

namespace TaskLeasing

/-- A task belongs to an instance that waits for it in its current activity. -/
structure ExternalTask.BelongsTo (task : ExternalTask) (run : ProcessInstance) : Prop where
  instanceId : task.instanceId = run.id
  definitionKey : task.definitionKey = run.definitionKey
  businessKey : task.businessKey = run.businessKey
  execution : task.execution = run.execution
  active : run.state = .active
  current : run.currentActivity = some task.activity
  last : run.history.getLast? = some task.activity

/-- Two states of an instance that differ in its variables and delivered errors alone. -/
structure ProcessInstance.SameCourse (a b : ProcessInstance) : Prop where
  id : b.id = a.id
  definitionKey : b.definitionKey = a.definitionKey
  businessKey : b.businessKey = a.businessKey
  execution : b.execution = a.execution
  state : b.state = a.state
  current : b.currentActivity = a.currentActivity
  history : b.history = a.history

/-- How instances and tasks stand to each other. Every active instance has its one task, but for one
that may be on its way from one task to the next. -/
structure Engine.Sound (e : Engine) (moving : Option String) : Prop where
  instances_distinct : (e.instances.map ProcessInstance.id).Nodup
  deployed : ∀ run ∈ e.instances, ∃ definition, e.definition? run.definitionKey = some definition
  tasks_distinct : (e.tasks.map fun record => record.task.id).Nodup
  ordered : e.tasks.Pairwise fun a b => a.sequence < b.sequence
  counted : ∀ record ∈ e.tasks, record.sequence ≤ e.sequence
  belongs : ∀ record ∈ e.tasks, ∃ run ∈ e.instances, record.task.BelongsTo run
  one_task : (e.tasks.map fun record => record.task.instanceId).Nodup
  waiting : ∀ run ∈ e.instances, run.state = .active →
    moving = some run.id ∨ ∃ record ∈ e.tasks, record.task.instanceId = run.id
  on_its_way : ∀ id, moving = some id →
    (∃ run ∈ e.instances, run.id = id ∧ run.state = .active) ∧
      ∀ record ∈ e.tasks, record.task.instanceId ≠ id

theorem Engine.sound_empty : Engine.empty.Sound none where
  instances_distinct := .nil
  deployed := by simp [Engine.empty]
  tasks_distinct := .nil
  ordered := .nil
  counted := by simp [Engine.empty]
  belongs := by simp [Engine.empty]
  one_task := .nil
  waiting := by simp [Engine.empty]
  on_its_way := by simp

theorem Engine.mem_modifyInstance {e : Engine} {id : String} {change : ProcessInstance → ProcessInstance}
    {run : ProcessInstance} :
    run ∈ (e.modifyInstance id change).instances ↔
      ∃ old ∈ e.instances, (if old.id = id then change old else old) = run := by
  simp only [modifyInstance, List.mem_map]

namespace Engine.Sound

variable {e : Engine} {moving : Option String}

/-- The order is one of definitions, instances and tasks; all else may differ. -/
theorem of_eq {other : Engine} (sound : e.Sound moving) (definitions : other.definitions = e.definitions)
    (instances : other.instances = e.instances) (tasks : other.tasks = e.tasks)
    (sequence : other.sequence = e.sequence) : other.Sound moving where
  instances_distinct := instances ▸ sound.instances_distinct
  deployed := by simpa only [instances, definition?, definitions] using sound.deployed
  tasks_distinct := tasks ▸ sound.tasks_distinct
  ordered := tasks ▸ sound.ordered
  counted := by simpa only [tasks, sequence] using sound.counted
  belongs := by simpa only [tasks, instances] using sound.belongs
  one_task := tasks ▸ sound.one_task
  waiting := by simpa only [tasks, instances] using sound.waiting
  on_its_way := by simpa only [tasks, instances] using sound.on_its_way

theorem instance_unique (sound : e.Sound moving) {a b : ProcessInstance} (atA : a ∈ e.instances)
    (atB : b ∈ e.instances) (same : a.id = b.id) : a = b :=
  List.inj_on_of_nodup_map sound.instances_distinct atA atB same

theorem record_unique (sound : e.Sound moving) {a b : TaskRecord} (atA : a ∈ e.tasks)
    (atB : b ∈ e.tasks) (same : a.task.id = b.task.id) : a = b :=
  List.inj_on_of_nodup_map sound.tasks_distinct atA atB same

theorem instance?_eq (sound : e.Sound moving) {run : ProcessInstance} (member : run ∈ e.instances) :
    e.instance? run.id = some run := find?_key sound.instances_distinct member

/-- The worker that leased an open task last is let at it. -/
theorem ownedRecord_eq (sound : e.Sound moving) {record : TaskRecord} (member : record ∈ e.tasks)
    {worker : String} (owned : record.task.worker = some worker) :
    e.ownedRecord record.task.id worker = .ok record := by
  have found : e.record? record.task.id = some record := find?_key sound.tasks_distinct member
  simp only [ownedRecord, found, owned, if_true]

theorem running_eq (sound : e.Sound moving) {run : ProcessInstance} (member : run ∈ e.instances) :
    ∃ definition, e.definition? run.definitionKey = some definition ∧
      e.running run.id = .ok (run, definition) := by
  obtain ⟨definition, found⟩ := sound.deployed run member
  exact ⟨definition, found, by simp only [running, sound.instance?_eq member, found]⟩

/-- What keeps the course of an instance keeps the order. -/
theorem sameCourse (sound : e.Sound moving) (id : String) {change : ProcessInstance → ProcessInstance}
    (keeps : ∀ run : ProcessInstance, run.SameCourse (change run)) :
    (e.modifyInstance id change).Sound moving where
  instances_distinct := by
    rw [modifyInstance_ids _ _ fun run => (keeps run).id]
    exact sound.instances_distinct
  deployed := by
    intro run member
    obtain ⟨old, atOld, rfl⟩ := mem_modifyInstance.mp member
    obtain ⟨definition, found⟩ := sound.deployed old atOld
    refine ⟨definition, ?_⟩
    split
    · rw [(keeps old).definitionKey]; exact found
    · exact found
  tasks_distinct := sound.tasks_distinct
  ordered := sound.ordered
  counted := sound.counted
  belongs := by
    intro record member
    obtain ⟨run, atRun, own⟩ := sound.belongs record member
    refine ⟨_, mem_modifyInstance.mpr ⟨run, atRun, rfl⟩, ?_⟩
    split
    · have same := keeps run
      exact ⟨own.instanceId.trans same.id.symm, own.definitionKey.trans same.definitionKey.symm,
        own.businessKey.trans same.businessKey.symm, own.execution.trans same.execution.symm,
        same.state.trans own.active, same.current.trans own.current,
        (congrArg List.getLast? same.history).trans own.last⟩
    · exact own
  one_task := sound.one_task
  waiting := by
    intro run member active
    obtain ⟨old, atOld, rfl⟩ := mem_modifyInstance.mp member
    by_cases same : old.id = id
    · simp only [same, if_true] at active ⊢
      rw [(keeps old).id]
      exact sound.waiting old atOld ((keeps old).state.symm.trans active)
    · simp only [same, if_false] at active ⊢
      exact sound.waiting old atOld active
  on_its_way := by
    intro other moves
    obtain ⟨⟨run, atRun, idEq, active⟩, free⟩ := sound.on_its_way other moves
    refine ⟨⟨_, mem_modifyInstance.mpr ⟨run, atRun, rfl⟩, ?_, ?_⟩, free⟩
    · split
      · exact (keeps run).id.trans idEq
      · exact idEq
    · split
      · exact (keeps run).state.trans active
      · exact active

/-- Ending an instance that is on its way restores the order: without a task it must not be active. -/
theorem ended {id : String} (sound : e.Sound (some id)) {change : ProcessInstance → ProcessInstance}
    (keeps : ∀ run, (change run).id = run.id) (key : ∀ run, (change run).definitionKey = run.definitionKey)
    (ends : ∀ run ∈ e.instances, run.id = id → (change run).state ≠ .active) :
    (e.modifyInstance id change).Sound none where
  instances_distinct := by
    rw [modifyInstance_ids _ _ keeps]
    exact sound.instances_distinct
  deployed := by
    intro run member
    obtain ⟨old, atOld, rfl⟩ := mem_modifyInstance.mp member
    obtain ⟨definition, found⟩ := sound.deployed old atOld
    refine ⟨definition, ?_⟩
    split
    · rw [key]; exact found
    · exact found
  tasks_distinct := sound.tasks_distinct
  ordered := sound.ordered
  counted := sound.counted
  belongs := by
    intro record member
    obtain ⟨run, atRun, own⟩ := sound.belongs record member
    have other : run.id ≠ id := own.instanceId ▸ (sound.on_its_way id rfl).2 record member
    exact ⟨run, mem_modifyInstance.mpr ⟨run, atRun, if_neg other⟩, own⟩
  one_task := sound.one_task
  waiting := by
    intro run member active
    obtain ⟨old, atOld, rfl⟩ := mem_modifyInstance.mp member
    by_cases same : old.id = id
    · simp only [same, if_true] at active
      exact absurd active (ends old atOld same)
    · simp only [same, if_false] at active ⊢
      rcases sound.waiting old atOld active with moves | found
      · exact absurd (Option.some.inj moves).symm same
      · exact .inr found
  on_its_way := by simp

/-- A task for an instance that is on its way, under a new name, restores the order. -/
theorem waits {id : String} (sound : e.Sound (some id)) {change : ProcessInstance → ProcessInstance}
    {task : ExternalTask} (keeps : ∀ run, (change run).id = run.id)
    (key : ∀ run, (change run).definitionKey = run.definitionKey)
    (own : ∀ run ∈ e.instances, run.id = id → task.BelongsTo (change run))
    (new : ∀ record ∈ e.tasks, record.task.id ≠ task.id) :
    ((e.modifyInstance id change).addTask task).Sound none := by
  obtain ⟨⟨moved, atMoved, movedId, _⟩, free⟩ := sound.on_its_way id rfl
  have taskId : task.instanceId = id := ((own moved atMoved movedId).instanceId.trans (keeps moved)).trans movedId
  refine ⟨?_, ?_, ?_, ?_, ?_, ?_, ?_, ?_, by simp⟩
  · simp only [addTask]
    rw [modifyInstance_ids _ _ keeps]
    exact sound.instances_distinct
  · intro run member
    obtain ⟨old, atOld, rfl⟩ := mem_modifyInstance.mp member
    obtain ⟨definition, found⟩ := sound.deployed old atOld
    refine ⟨definition, ?_⟩
    split
    · rw [key]; exact found
    · exact found
  · simp only [addTask, modifyInstance, List.map_append, List.map_cons, List.map_nil]
    refine List.nodup_append.mpr ⟨sound.tasks_distinct, List.nodup_singleton _, ?_⟩
    simpa [List.mem_map] using new
  · simp only [addTask, modifyInstance]
    refine List.pairwise_append.mpr ⟨sound.ordered, List.pairwise_singleton _ _, ?_⟩
    intro record member last atLast
    have := sound.counted record member
    simp only [List.mem_singleton] at atLast
    subst atLast
    simp only
    omega
  · simp only [addTask, modifyInstance, List.mem_append, List.mem_singleton]
    rintro record (member | rfl)
    · have := sound.counted record member
      omega
    · exact Nat.le_refl _
  · simp only [addTask, modifyInstance, List.mem_append, List.mem_singleton]
    rintro record (member | rfl)
    · obtain ⟨run, atRun, owned⟩ := sound.belongs record member
      have other : run.id ≠ id := owned.instanceId ▸ free record member
      exact ⟨run, mem_modifyInstance.mpr ⟨run, atRun, if_neg other⟩, owned⟩
    · exact ⟨change moved, mem_modifyInstance.mpr ⟨moved, atMoved, if_pos movedId⟩,
        own moved atMoved movedId⟩
  · simp only [addTask, modifyInstance, List.map_append, List.map_cons, List.map_nil]
    refine List.nodup_append.mpr ⟨sound.one_task, List.nodup_singleton _, ?_⟩
    simpa [List.mem_map, taskId] using free
  · intro run member active
    right
    simp only [addTask, modifyInstance, List.mem_append, List.mem_singleton]
    obtain ⟨old, atOld, rfl⟩ := mem_modifyInstance.mp member
    by_cases same : old.id = id
    · refine ⟨_, .inr rfl, ?_⟩
      simp only [same, if_true, keeps, taskId]
    · simp only [same, if_false] at active ⊢
      rcases sound.waiting old atOld active with moves | ⟨record, found, idEq⟩
      · exact absurd (Option.some.inj moves).symm same
      · exact ⟨record, .inl found, idEq⟩

end Engine.Sound

end TaskLeasing
