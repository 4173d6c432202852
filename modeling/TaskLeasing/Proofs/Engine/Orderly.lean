import TaskLeasing.System.State
import TaskLeasing.Proofs.Engine.Instances

namespace TaskLeasing

/-- Names that tell apart what they are given to. -/
structure Naming.Distinct (names : Naming) : Prop where
  task : Function.Injective names.task
  instanceId : Function.Injective names.instanceId

/-- An engine in order, which creates everything under the names that come next. -/
structure Engine.Orderly (e : Engine) (names : Naming) : Prop where
  sound : e.Sound none
  task_names : ∀ record ∈ e.tasks, record.task.id = names.task record.sequence
  instance_names : ∀ run ∈ e.instances, ∃ place ≤ e.instances.length, run.id = names.instanceId place

/-- The name of a task that was opened at some time. -/
def Engine.Issued (e : Engine) (names : Naming) (task : String) : Prop :=
  ∃ place ≤ e.sequence, task = names.task place

namespace Engine

variable {e : Engine} {names : Naming}

theorem orderly_empty (names : Naming) : empty.Orderly names := ⟨sound_empty, by simp [empty], by simp [empty]⟩

namespace Orderly

theorem of_eq (orderly : e.Orderly names) {after : Engine} (definitions : after.definitions = e.definitions)
    (instances : after.instances = e.instances) (tasks : after.tasks = e.tasks)
    (sequence : after.sequence = e.sequence) : after.Orderly names where
  sound := orderly.sound.of_eq definitions instances tasks sequence
  task_names := tasks ▸ orderly.task_names
  instance_names := instances ▸ orderly.instance_names

theorem issued (orderly : e.Orderly names) {record : TaskRecord} (member : record ∈ e.tasks) :
    e.Issued names record.task.id :=
  ⟨record.sequence, orderly.sound.counted record member, orderly.task_names record member⟩

/-- The names that come next are new, for names are given by the number of what was created. -/
theorem newTo (orderly : e.Orderly names) (apart : names.Distinct) : (names.next e).NewTo e where
  instances := by
    intro run member same
    obtain ⟨place, within, named⟩ := orderly.instance_names run member
    have := apart.instanceId (named.symm.trans same)
    omega
  tasks := by
    intro record member same
    have counted := orderly.sound.counted record member
    have := apart.task ((orderly.task_names record member).symm.trans same)
    omega

theorem rewrites (orderly : e.Orderly names) {after : Engine} {change : TaskRecord → TaskRecord}
    (rewrites : e.Rewrites after change) : after.Orderly names where
  sound := orderly.sound.rewrites rewrites
  task_names := by
    intro record member
    rw [rewrites.tasks] at member
    obtain ⟨old, atOld, rfl⟩ := List.mem_map.mp member
    rw [(rewrites.keeps old).id, (rewrites.keeps old).sequence]
    exact orderly.task_names old atOld
  instance_names := rewrites.instances ▸ orderly.instance_names

theorem plain (orderly : e.Orderly names) (apart : names.Distinct) (now : Instant) {kind : AnswerKind}
    {operation : Operation kind} (plain : operation.isPlain = true) :
    (e.step now (names.next e) operation).engine.Orderly names := by
  obtain ⟨begun, ordinary, new⟩ := ordinary_step e now (names.next e) plain
  have count : e.instances.length + begun.length =
      (e.step now (names.next e) operation).engine.instances.length := by
    have := congrArg List.length ordinary.instances
    simpa using this.symm
  refine ⟨(orderly.sound.step now (orderly.newTo apart) operation).1, ?_, ?_⟩
  · intro record member
    rcases ordinary.records record member with ⟨old, _⟩ | ⟨opened, _⟩
    · exact orderly.task_names record old
    · rw [opened.id, opened.sequence]
      rfl
  · intro run member
    have atIds := List.mem_map_of_mem (f := ProcessInstance.id) member
    rw [ordinary.instances, List.mem_append] at atIds
    rcases atIds with old | begins
    · obtain ⟨other, atOther, same⟩ := List.mem_map.mp old
      obtain ⟨place, within, named⟩ := orderly.instance_names other atOther
      exact ⟨place, by omega, same.symm.trans named⟩
    · rcases new with rfl | ⟨rfl, _⟩
      · cases begins
      · exact ⟨e.instances.length + 1, Nat.le_of_eq count, List.mem_singleton.mp begins⟩

theorem deploy (orderly : e.Orderly names) (definition : ProcessDefinition) :
    (e.deploy definition).Orderly names := by
  obtain ⟨instances, tasks, _⟩ := deploy_rest e definition
  exact ⟨(orderly.sound.deploy definition).1, tasks ▸ orderly.task_names, by
    rw [instances]
    exact orderly.instance_names⟩

/-- No call disturbs the order. -/
theorem step (orderly : e.Orderly names) (apart : names.Distinct) (now : Instant) {kind : AnswerKind}
    (operation : Operation kind) : (e.step now (names.next e) operation).engine.Orderly names := by
  cases operation with
  | deploy definition => exact orderly.deploy definition
  | setAvailable available => exact orderly.of_eq rfl rfl rfl rfl
  | lease request =>
    obtain ⟨change, rewrites⟩ := rewrites_lease e now request
    exact orderly.rewrites rewrites
  | failure task worker report =>
    obtain ⟨change, rewrites⟩ := rewrites_reportFailure e now (names.next e).incident task worker report
    exact orderly.rewrites rewrites
  | _ => exact orderly.plain apart now rfl

end Orderly

theorem sequence_le_step (e : Engine) (now : Instant) (fresh : FreshNames) {kind : AnswerKind}
    (operation : Operation kind) : e.sequence ≤ (e.step now fresh operation).engine.sequence := by
  have ordinary (plain : operation.isPlain = true) :
      e.sequence ≤ (e.step now fresh operation).engine.sequence := by
    obtain ⟨_, ordinary, _⟩ := ordinary_step e now fresh plain
    exact ordinary.sequence
  cases operation with
  | deploy definition => exact Nat.le_of_eq (deploy_rest e definition).2.2.1.symm
  | setAvailable available => exact Nat.le_refl _
  | lease request =>
    obtain ⟨change, rewrites⟩ := rewrites_lease e now request
    exact Nat.le_of_eq rewrites.sequence.symm
  | failure task worker report =>
    obtain ⟨change, rewrites⟩ := rewrites_reportFailure e now fresh.incident task worker report
    exact Nat.le_of_eq rewrites.sequence.symm
  | _ => exact ordinary rfl

theorem Issued.step {task : String} (issued : e.Issued names task) (now : Instant) (fresh : FreshNames)
    {kind : AnswerKind} (operation : Operation kind) : (e.step now fresh operation).engine.Issued names task := by
  obtain ⟨place, within, named⟩ := issued
  exact ⟨place, Nat.le_trans within (e.sequence_le_step now fresh operation), named⟩

/-- What is issued is not what comes next. -/
theorem Issued.ne_next {task : String} (issued : e.Issued names task) (apart : names.Distinct) :
    (names.next e).task ≠ task := by
  obtain ⟨place, within, rfl⟩ := issued
  intro same
  have := apart.task same
  omega

end Engine

end TaskLeasing
