import TaskLeasing.Proofs.Engine.Records
import TaskLeasing.Proofs.Engine.Soundness

namespace TaskLeasing

/-- Two states of an instance that cannot be told apart by how it has gone so far. -/
structure ProcessInstance.SameEnd (a b : ProcessInstance) : Prop where
  id : b.id = a.id
  state : b.state = a.state
  history : b.history = a.history
  businessErrors : b.businessErrors = a.businessErrors
  current : b.currentActivity = a.currentActivity

theorem ProcessInstance.SameEnd.refl (run : ProcessInstance) : run.SameEnd run := ⟨rfl, rfl, rfl, rfl, rfl⟩

/-- What has ended before has ended the same way after. -/
def Engine.KeepsEnded (e after : Engine) : Prop :=
  ∀ run ∈ e.instances, run.isEnded → ∃ later ∈ after.instances, run.SameEnd later

namespace Engine

variable {e : Engine} {moving : Option String}

theorem KeepsEnded.of_eq {after : Engine} (same : after.instances = e.instances) : e.KeepsEnded after :=
  fun run member _ => ⟨run, same ▸ member, .refl run⟩

theorem KeepsEnded.trans {middle after : Engine} (first : e.KeepsEnded middle)
    (second : middle.KeepsEnded after) : e.KeepsEnded after := by
  intro run member ended
  obtain ⟨later, atLater, same⟩ := first run member ended
  have still : later.isEnded := by simpa only [ProcessInstance.isEnded, same.state] using ended
  obtain ⟨last, atLast, next⟩ := second later atLater still
  exact ⟨last, atLast, next.id.trans same.id, next.state.trans same.state, next.history.trans same.history,
    next.businessErrors.trans same.businessErrors, next.current.trans same.current⟩

theorem KeepsEnded.modifyInstance {id : String} {change : ProcessInstance → ProcessInstance}
    (keeps : ∀ run ∈ e.instances, run.id = id → run.isEnded → run.SameEnd (change run)) :
    e.KeepsEnded (e.modifyInstance id change) := by
  intro run member ended
  refine ⟨_, mem_modifyInstance.mpr ⟨run, member, rfl⟩, ?_⟩
  split
  · exact keeps run member (by assumption) ended
  · exact .refl run

theorem Sound.not_ended {id : String} (sound : e.Sound (some id)) {run : ProcessInstance}
    (member : run ∈ e.instances) (idEq : run.id = id) : ¬ run.isEnded := by
  obtain ⟨⟨moved, atMoved, movedId, active⟩, _⟩ := sound.on_its_way id rfl
  rw [sound.instance_unique member atMoved (idEq.trans movedId.symm)]
  simp [ProcessInstance.isEnded, active]

theorem Sound.advance_ok {id : String} (sound : e.Sound (some id)) (place : Nat) (fresh : String) :
    (e.advance id place fresh).result = .ok () := by
  obtain ⟨⟨run, atRun, rfl, _⟩, _⟩ := sound.on_its_way id rfl
  obtain ⟨definition, _, running⟩ := sound.running_eq atRun
  simp only [Engine.advance, running]

/-- An instance on its way always gets on: it comes to wait in one task, or ends. -/
theorem Sound.advance {id : String} (sound : e.Sound (some id)) (place : Nat) (fresh : String)
    (new : ∀ record ∈ e.tasks, record.task.id ≠ fresh) :
    (e.advance id place fresh).engine.Sound none ∧ e.KeepsEnded (e.advance id place fresh).engine := by
  obtain ⟨⟨run, atRun, rfl, active⟩, _⟩ := sound.on_its_way id rfl
  obtain ⟨definition, found, running⟩ := sound.running_eq atRun
  have key := definition?_key found
  unfold Engine.advance
  simp only [running]
  refine ⟨?_, ?_⟩
  · rw [walk_engine]
    cases waits : waitsIn? (definition.activities.drop place) with
    | none =>
      refine sound.ended (fun _ => rfl) (fun _ => rfl) fun other member same => ?_
      rw [sound.instance_unique member atRun same]
      simp [ProcessInstance.goOn, waits, active]
    | some target =>
      obtain ⟨activity, topic⟩ := target
      refine sound.waits (fun _ => rfl) (fun _ => rfl) (fun other member same => ?_) new
      rw [sound.instance_unique member atRun same]
      have last := (waitsIn?_spec waits).2.2
      refine ⟨rfl, key, rfl, rfl, ?_, ?_, ?_⟩
      · simp [ProcessInstance.goOn, waits, active]
      · simp [ProcessInstance.goOn, waits, ProcessInstance.openTask]
      · simp [ProcessInstance.goOn, ProcessInstance.openTask, List.getLast?_append, last]
  · have goesOn : e.KeepsEnded
        (e.modifyInstance run.id fun r => r.goOn (definition.activities.drop place)) :=
      .modifyInstance fun other member same ended => absurd ended (sound.not_ended member same)
    rw [walk_engine]
    cases waitsIn? (definition.activities.drop place) with
    | none => exact goesOn
    | some target => exact goesOn.trans (.of_eq rfl)

/-- Once its task is gone, an instance is on its way. -/
theorem Sound.removeTask (sound : e.Sound none) {record : TaskRecord} (member : record ∈ e.tasks) :
    (e.removeTask record.task.id).Sound (some record.task.instanceId) := by
  have stays {other : TaskRecord} :
      other ∈ (e.removeTask record.task.id).tasks ↔ other ∈ e.tasks ∧ other.task.id ≠ record.task.id := by
    simp [Engine.removeTask, List.mem_filter]
  have apart {other : TaskRecord} (atOther : other ∈ e.tasks)
      (same : other.task.instanceId = record.task.instanceId) : other = record :=
    List.inj_on_of_nodup_map sound.one_task atOther member same
  refine ⟨sound.instances_distinct, sound.deployed, ?_, ?_, ?_, ?_, ?_, ?_, ?_⟩
  · exact sound.tasks_distinct.sublist (List.filter_sublist.map _)
  · exact sound.ordered.sublist List.filter_sublist
  · exact fun other atOther => sound.counted other (stays.mp atOther).1
  · exact fun other atOther => sound.belongs other (stays.mp atOther).1
  · exact sound.one_task.sublist (List.filter_sublist.map _)
  · intro run atRun active
    rcases sound.waiting run atRun active with moves | ⟨other, atOther, owner⟩
    · cases moves
    · by_cases same : other.task.id = record.task.id
      · have equal := sound.record_unique atOther member same
        exact .inl (by rw [← owner, equal])
      · exact .inr ⟨other, stays.mpr ⟨atOther, same⟩, owner⟩
  · rintro id ⟨⟩
    obtain ⟨run, atRun, own⟩ := sound.belongs record member
    refine ⟨⟨run, atRun, own.instanceId.symm, own.active⟩, fun other atOther same => ?_⟩
    obtain ⟨old, different⟩ := stays.mp atOther
    exact different (congrArg (fun r => r.task.id) (apart old same))

/-- An engine that has just been told of the completion of a task; its instance has yet to go on. -/
def completing (e : Engine) (record : TaskRecord) (vars : Variables) : Engine :=
  (((e.removeTask record.task.id).resolveIncidents record.task.id).recordCompletion record.task.id
    vars).modifyInstance record.task.instanceId fun run => { run with vars := run.vars.extend vars }

/-- An engine that has just been told of a business error in a task; its instance has yet to go on. -/
def erring (e : Engine) (record : TaskRecord) (code : String) (vars : Option Variables) : Engine :=
  ((e.removeTask record.task.id).resolveIncidents record.task.id).modifyInstance
    record.task.instanceId fun run =>
      { run with
        vars := vars.elim run.vars run.vars.extend
        businessErrors := run.businessErrors ++ [code] }

theorem Sound.completing (sound : e.Sound none) {record : TaskRecord} (member : record ∈ e.tasks)
    (vars : Variables) : (e.completing record vars).Sound (some record.task.instanceId) := by
  have removed : (((e.removeTask record.task.id).resolveIncidents record.task.id).recordCompletion
      record.task.id vars).Sound (some record.task.instanceId) :=
    (sound.removeTask member).of_eq rfl rfl rfl rfl
  exact removed.sameCourse _ fun run => ⟨rfl, rfl, rfl, rfl, rfl, rfl, rfl⟩

theorem Sound.erring (sound : e.Sound none) {record : TaskRecord} (member : record ∈ e.tasks)
    (code : String) (vars : Option Variables) :
    (e.erring record code vars).Sound (some record.task.instanceId) := by
  have removed : ((e.removeTask record.task.id).resolveIncidents record.task.id).Sound
      (some record.task.instanceId) := (sound.removeTask member).of_eq rfl rfl rfl rfl
  exact removed.sameCourse _ fun run => ⟨rfl, rfl, rfl, rfl, rfl, rfl, rfl⟩

/-- The instance of an open task has not ended, so whatever happens to it leaves the ended ones alone. -/
theorem Sound.keepsEnded_owner (sound : e.Sound none) {record : TaskRecord} (member : record ∈ e.tasks)
    (change : ProcessInstance → ProcessInstance) :
    e.KeepsEnded (e.modifyInstance record.task.instanceId change) :=
  .modifyInstance fun _ atRun same ended => absurd ended ((sound.removeTask member).not_ended atRun same)

theorem Sound.running_owner (sound : e.Sound none) {record : TaskRecord} (member : record ∈ e.tasks) :
    ∃ run definition, e.instance? record.task.instanceId = some run ∧ run.id = record.task.instanceId ∧
      e.definition? record.task.definitionKey = some definition ∧
      e.running record.task.instanceId = .ok (run, definition) := by
  obtain ⟨run, atRun, own⟩ := sound.belongs record member
  obtain ⟨definition, found, running⟩ := sound.running_eq atRun
  rw [own.instanceId, own.definitionKey]
  exact ⟨run, definition, sound.instance?_eq atRun, rfl, found, running⟩

/-- A completion that nothing stands against lets the instance go on after the task's activity. -/
theorem Sound.complete_eq (sound : e.Sound none) (available : e.available = true) {task worker : String}
    {record : TaskRecord} (owned : e.ownedRecord task worker = .ok record) (open' : task ∉ e.refusals)
    (fresh : String) (vars : Variables) :
    ∃ definition, e.definition? record.task.definitionKey = some definition ∧
      e.complete fresh task worker vars = (e.completing record vars).advance record.task.instanceId
        (definition.after record.task.activity) fresh := by
  obtain ⟨member, rfl, _⟩ := ownedRecord_ok owned
  obtain ⟨run, definition, _, idEq, found, running⟩ := sound.running_owner member
  refine ⟨definition, found, ?_⟩
  have same : (((e.removeTask record.task.id).resolveIncidents record.task.id).recordCompletion
      record.task.id vars).running record.task.instanceId = .ok (run, definition) := running
  unfold Engine.complete Engine.completing
  simp only [available, not_true_eq_false, if_false, owned, open', same, idEq]

/-- A business error that nothing stands against leads to the error boundary of the task's activity, or
ends the instance. -/
theorem Sound.raiseBusinessError_eq (sound : e.Sound none) (available : e.available = true)
    {task worker : String} {record : TaskRecord} (owned : e.ownedRecord task worker = .ok record)
    (fresh code : String) (vars : Option Variables) :
    ∃ definition, e.definition? record.task.definitionKey = some definition ∧
      e.raiseBusinessError fresh task worker code vars =
        match definition.boundary? record.task.activity with
        | some place => (e.erring record code vars).advance record.task.instanceId place fresh
        | none => ((e.erring record code vars).modifyInstance record.task.instanceId fun run =>
            { run with currentActivity := none, state := .endedByError code }).answer () := by
  obtain ⟨member, rfl, _⟩ := ownedRecord_ok owned
  obtain ⟨run, definition, _, idEq, found, running⟩ := sound.running_owner member
  refine ⟨definition, found, ?_⟩
  have same : ((e.removeTask record.task.id).resolveIncidents record.task.id).running
      record.task.instanceId = .ok (run, definition) := running
  unfold Engine.raiseBusinessError Engine.erring
  cases boundary : definition.boundary? record.task.activity with
  | none => simp only [available, not_true_eq_false, if_false, owned, same, idEq, boundary]
  | some place => simp only [available, not_true_eq_false, if_false, owned, same, idEq, boundary]

/-- A completion that nothing stands against is accepted. -/
theorem Sound.complete_ok (sound : e.Sound none) (available : e.available = true) {task worker : String}
    {record : TaskRecord} (owned : e.ownedRecord task worker = .ok record) (open' : task ∉ e.refusals)
    (fresh : String) (vars : Variables) : (e.complete fresh task worker vars).result = .ok () := by
  obtain ⟨member, _, _⟩ := ownedRecord_ok owned
  obtain ⟨definition, _, step⟩ := sound.complete_eq available owned open' fresh vars
  rw [step]
  exact (sound.completing member vars).advance_ok _ _

/-- A business error that nothing stands against is accepted. -/
theorem Sound.raiseBusinessError_ok (sound : e.Sound none) (available : e.available = true)
    {task worker : String} {record : TaskRecord} (owned : e.ownedRecord task worker = .ok record)
    (fresh code : String) (vars : Option Variables) :
    (e.raiseBusinessError fresh task worker code vars).result = .ok () := by
  obtain ⟨member, _, _⟩ := ownedRecord_ok owned
  obtain ⟨definition, _, step⟩ := sound.raiseBusinessError_eq available owned fresh code vars
  rw [step]
  cases definition.boundary? record.task.activity with
  | none => rfl
  | some place => exact (sound.erring member code vars).advance_ok place fresh

theorem Sound.complete (sound : e.Sound none) (fresh task worker : String) (vars : Variables)
    (new : ∀ record ∈ e.tasks, record.task.id ≠ fresh) :
    (e.complete fresh task worker vars).engine.Sound none ∧
      e.KeepsEnded (e.complete fresh task worker vars).engine := by
  have unchanged : e.Sound none ∧ e.KeepsEnded e := ⟨sound, .of_eq rfl⟩
  by_cases available : e.available = true
  · cases owned : e.ownedRecord task worker with
    | error reason => simpa [Engine.complete, available, owned, refuse] using unchanged
    | ok record =>
      by_cases refused : task ∈ e.refusals
      · simp only [Engine.complete, available, not_true_eq_false, if_false, owned, refused, if_true, refuse]
        exact ⟨sound.of_eq rfl rfl rfl rfl, .of_eq rfl⟩
      · obtain ⟨member, _, _⟩ := ownedRecord_ok owned
        obtain ⟨definition, _, step⟩ := sound.complete_eq available owned refused fresh vars
        have further := (sound.completing member vars).advance (definition.after record.task.activity)
          fresh fun other atOther => new other (List.mem_of_mem_filter atOther)
        rw [step]
        exact ⟨further.1, (sound.keepsEnded_owner member _).trans further.2⟩
  · simpa [Engine.complete, available, refuse] using unchanged

theorem Sound.raiseBusinessError (sound : e.Sound none) (fresh task worker code : String)
    (vars : Option Variables) (new : ∀ record ∈ e.tasks, record.task.id ≠ fresh) :
    (e.raiseBusinessError fresh task worker code vars).engine.Sound none ∧
      e.KeepsEnded (e.raiseBusinessError fresh task worker code vars).engine := by
  have unchanged : e.Sound none ∧ e.KeepsEnded e := ⟨sound, .of_eq rfl⟩
  by_cases available : e.available = true
  · cases owned : e.ownedRecord task worker with
    | error reason => simpa [Engine.raiseBusinessError, available, owned, refuse] using unchanged
    | ok record =>
      obtain ⟨member, _, _⟩ := ownedRecord_ok owned
      obtain ⟨definition, _, step⟩ := sound.raiseBusinessError_eq available owned fresh code vars
      have erred := sound.erring member code vars
      have kept : e.KeepsEnded (e.erring record code vars) := sound.keepsEnded_owner member _
      rw [step]
      cases definition.boundary? record.task.activity with
      | none =>
        refine ⟨erred.ended (fun _ => rfl) (fun _ => rfl) fun _ _ _ => by simp, ?_⟩
        exact kept.trans (.modifyInstance fun run atRun same ended =>
          absurd ended (erred.not_ended atRun same))
      | some place =>
        have further := erred.advance place fresh fun other atOther =>
          new other (List.mem_of_mem_filter atOther)
        exact ⟨further.1, kept.trans further.2⟩
  · simpa [Engine.raiseBusinessError, available, refuse] using unchanged

end Engine

end TaskLeasing
