import TaskLeasing.Proofs.Engine.Openings
import TaskLeasing.Proofs.Engine.Operations

namespace TaskLeasing

/-- Names that nothing in the engine has. -/
structure FreshNames.NewTo (fresh : FreshNames) (e : Engine) : Prop where
  instances : ∀ run ∈ e.instances, run.id ≠ fresh.instanceId
  tasks : ∀ record ∈ e.tasks, record.task.id ≠ fresh.task

/-- Instances and tasks have their names from a list. -/
structure Engine.NamedBy (e : Engine) (names : List FreshNames) : Prop where
  instances : ∀ run ∈ e.instances, ∃ given ∈ names, run.id = given.instanceId
  tasks : ∀ record ∈ e.tasks, ∃ given ∈ names, record.task.id = given.task

/-- The open tasks of an instance. -/
def Engine.recordsOf (e : Engine) (id : String) : List TaskRecord :=
  e.tasks.filter fun record => record.task.instanceId = id

namespace Engine

variable {e : Engine} {moving : Option String}

theorem Sound.mapRecords (sound : e.Sound moving) {change : TaskRecord → TaskRecord}
    (keeps : ∀ record : TaskRecord, record.SameTask (change record)) : (e.mapRecords change).Sound moving where
  instances_distinct := sound.instances_distinct
  deployed := sound.deployed
  tasks_distinct := by
    have same : (fun record => record.task.id) ∘ change = fun record : TaskRecord => record.task.id :=
      funext fun record => (keeps record).id
    simp only [Engine.mapRecords, List.map_map, same]
    exact sound.tasks_distinct
  ordered := by
    refine List.pairwise_map.mpr (sound.ordered.imp fun {a b} before => ?_)
    rw [(keeps a).sequence, (keeps b).sequence]
    exact before
  counted := by
    intro record member
    obtain ⟨old, atOld, rfl⟩ := List.mem_map.mp member
    rw [(keeps old).sequence]
    exact sound.counted old atOld
  belongs := by
    intro record member
    obtain ⟨old, atOld, rfl⟩ := List.mem_map.mp member
    obtain ⟨run, atRun, own⟩ := sound.belongs old atOld
    have same := keeps old
    exact ⟨run, atRun, same.instanceId.trans own.instanceId, same.definitionKey.trans own.definitionKey,
      same.businessKey.trans own.businessKey, same.execution.trans own.execution, own.active,
      own.current.trans (congrArg some same.activity.symm), own.last.trans (congrArg some same.activity.symm)⟩
  one_task := by
    have same : (fun record => record.task.instanceId) ∘ change =
        fun record : TaskRecord => record.task.instanceId := funext fun record => (keeps record).instanceId
    simp only [Engine.mapRecords, List.map_map, same]
    exact sound.one_task
  waiting := by
    intro run atRun active
    refine (sound.waiting run atRun active).imp id ?_
    rintro ⟨record, member, owner⟩
    exact ⟨change record, List.mem_map_of_mem member, (keeps record).instanceId.trans owner⟩
  on_its_way := by
    intro id moves
    obtain ⟨exists', free⟩ := sound.on_its_way id moves
    refine ⟨exists', fun record member => ?_⟩
    obtain ⟨old, atOld, rfl⟩ := List.mem_map.mp member
    rw [(keeps old).instanceId]
    exact free old atOld

theorem Sound.rewrites (sound : e.Sound moving) {after : Engine} {change : TaskRecord → TaskRecord}
    (rewrites : e.Rewrites after change) : after.Sound moving :=
  (sound.mapRecords rewrites.keeps).of_eq rewrites.definitions rewrites.instances rewrites.tasks
    rewrites.sequence

/-- A lease takes a record if it takes one of its name. -/
theorem Sound.chosen_iff (sound : e.Sound moving) {now : Instant} {request : LeaseRequest} {record : TaskRecord}
    (member : record ∈ e.tasks) :
    record.task.id ∈ (e.chosenFor now request).map (fun r => r.task.id) ↔ record ∈ e.chosenFor now request := by
  refine ⟨fun among => ?_, fun chosen => List.mem_map_of_mem chosen⟩
  obtain ⟨other, chosen, same⟩ := List.mem_map.mp among
  exact sound.record_unique (mem_chosenFor chosen).1 member same ▸ chosen

/-- A deployment takes no definition away, also where it puts a new one in the place of an old one. -/
theorem definition?_deploy {key : String} {old definition : ProcessDefinition}
    (found : e.definition? key = some old) :
    ∃ current, (e.deploy definition).definition? key = some current := by
  refine Option.isSome_iff_exists.mp (List.find?_isSome.mpr ?_)
  have member := List.mem_of_find?_eq_some found
  have keyEq := definition?_key found
  unfold Engine.deploy
  split
  · by_cases same : old.key = definition.key
    · exact ⟨definition, List.mem_map.mpr ⟨old, member, if_pos same⟩, by simp [← same, keyEq]⟩
    · exact ⟨old, List.mem_map.mpr ⟨old, member, if_neg same⟩, by simp [keyEq]⟩
  · exact ⟨old, List.mem_append_left _ member, by simp [keyEq]⟩

/-- A deployment changes nothing but the definitions. -/
theorem deploy_rest (e : Engine) (definition : ProcessDefinition) :
    (e.deploy definition).instances = e.instances ∧ (e.deploy definition).tasks = e.tasks ∧
      (e.deploy definition).sequence = e.sequence ∧ (e.deploy definition).incidents = e.incidents ∧
      (e.deploy definition).available = e.available := by
  unfold Engine.deploy
  split <;> exact ⟨rfl, rfl, rfl, rfl, rfl⟩

theorem Sound.deploy (sound : e.Sound none) (definition : ProcessDefinition) :
    (e.deploy definition).Sound none ∧ e.KeepsEnded (e.deploy definition) := by
  have deployed : ∀ run ∈ e.instances,
      ∃ current, (e.deploy definition).definition? run.definitionKey = some current := by
    intro run atRun
    obtain ⟨old, found⟩ := sound.deployed run atRun
    exact definition?_deploy found
  obtain ⟨instances, tasks, sequence, _, _⟩ := deploy_rest e definition
  refine ⟨⟨?_, ?_, ?_, ?_, ?_, ?_, ?_, ?_, by simp⟩, .of_eq instances⟩
  · exact instances ▸ sound.instances_distinct
  · rw [instances]; exact deployed
  · exact tasks ▸ sound.tasks_distinct
  · exact tasks ▸ sound.ordered
  · rw [tasks, sequence]; exact sound.counted
  · rw [tasks, instances]; exact sound.belongs
  · exact tasks ▸ sound.one_task
  · rw [tasks, instances]; exact sound.waiting

/-- An instance that is added active and without a task is on its way. -/
theorem Sound.addInstance (sound : e.Sound none) {run : ProcessInstance} {definition : ProcessDefinition}
    (found : e.definition? run.definitionKey = some definition) (active : run.state = .active)
    (new : ∀ old ∈ e.instances, old.id ≠ run.id) : (e.addInstance run).Sound (some run.id) where
  instances_distinct := by
    simp only [Engine.addInstance, List.map_append, List.map_cons, List.map_nil]
    refine List.nodup_append.mpr ⟨sound.instances_distinct, List.nodup_singleton _, ?_⟩
    simpa [List.mem_map] using new
  deployed := by
    intro other member
    rcases List.mem_append.mp member with old | added
    · exact sound.deployed other old
    · rw [List.mem_singleton.mp added]
      exact ⟨definition, found⟩
  tasks_distinct := sound.tasks_distinct
  ordered := sound.ordered
  counted := sound.counted
  belongs := by
    intro record member
    obtain ⟨owner, atOwner, own⟩ := sound.belongs record member
    exact ⟨owner, List.mem_append_left _ atOwner, own⟩
  one_task := sound.one_task
  waiting := by
    intro other member active'
    rcases List.mem_append.mp member with old | added
    · exact .inr ((sound.waiting other old active').resolve_left (by simp))
    · rw [List.mem_singleton.mp added]
      exact .inl rfl
  on_its_way := by
    rintro id ⟨⟩
    refine ⟨⟨run, List.mem_append_right _ (List.mem_singleton_self run), rfl, active⟩, ?_⟩
    intro record member same
    obtain ⟨owner, atOwner, own⟩ := sound.belongs record member
    exact new owner atOwner (own.instanceId.symm.trans same)

theorem Sound.start (sound : e.Sound none) {fresh : FreshNames} (new : fresh.NewTo e) (key : String)
    (businessKey : Option String) (vars : Variables) :
    (e.start fresh key businessKey vars).engine.Sound none ∧
      e.KeepsEnded (e.start fresh key businessKey vars).engine := by
  have unchanged : e.Sound none ∧ e.KeepsEnded e := ⟨sound, .of_eq rfl⟩
  unfold Engine.start
  split
  · exact unchanged
  · cases found : e.definition? key with
    | none => exact unchanged
    | some definition =>
      have added : (e.addInstance ⟨fresh.instanceId, key, businessKey, fresh.execution, vars, none, .active,
          [], []⟩).Sound (some fresh.instanceId) := sound.addInstance found rfl new.instances
      have further := added.advance 0 fresh.task new.tasks
      refine ⟨further.1, .trans (fun run atRun _ => ?_) further.2⟩
      exact ⟨run, List.mem_append_left _ atRun, .refl run⟩

theorem Sound.setVariables (sound : e.Sound none) (execution : String) (vars : Variables) :
    (e.setVariables execution vars).engine.Sound none ∧
      e.KeepsEnded (e.setVariables execution vars).engine := by
  have unchanged : e.Sound none ∧ e.KeepsEnded e := ⟨sound, .of_eq rfl⟩
  unfold Engine.setVariables
  split
  · exact unchanged
  · split
    · exact unchanged
    · exact ⟨sound.sameCourse _ fun run => ⟨rfl, rfl, rfl, rfl, rfl, rfl, rfl⟩,
        .modifyInstance fun run _ _ _ => ⟨rfl, rfl, rfl, rfl, rfl⟩⟩

/-- No call that is given new names disturbs the order or brings an ended instance back. -/
theorem Sound.step (sound : e.Sound none) (now : Instant) {fresh : FreshNames} (new : fresh.NewTo e)
    {kind : AnswerKind} (operation : Operation kind) :
    (e.step now fresh operation).engine.Sound none ∧ e.KeepsEnded (e.step now fresh operation).engine := by
  have same {after : Engine} (definitions : after.definitions = e.definitions)
      (instances : after.instances = e.instances) (tasks : after.tasks = e.tasks)
      (sequence : after.sequence = e.sequence) : after.Sound none ∧ e.KeepsEnded after :=
    ⟨sound.of_eq definitions instances tasks sequence, .of_eq instances⟩
  have rewritten {after : Engine} (rewrites : ∃ change, e.Rewrites after change) :
      after.Sound none ∧ e.KeepsEnded after := by
    obtain ⟨change, rewrites⟩ := rewrites
    exact ⟨sound.rewrites rewrites, .of_eq rewrites.instances⟩
  cases operation with
  | deploy definition => exact sound.deploy definition
  | start key businessKey vars => exact sound.start new key businessKey vars
  | lease request => exact rewritten (rewrites_lease e now request)
  | failure task worker report => exact rewritten (rewrites_reportFailure e now fresh.incident task worker report)
  | complete task worker vars => exact sound.complete fresh.task task worker vars new.tasks
  | businessError task worker code message vars =>
    exact sound.raiseBusinessError fresh.task task worker code vars new.tasks
  | setVariables execution vars => exact sound.setVariables execution vars
  | findTask task =>
    change (e.findTask task).engine.Sound none ∧ e.KeepsEnded (e.findTask task).engine
    unfold Engine.findTask
    split <;> exact same rfl rfl rfl rfl
  | scheduleJob due payload =>
    change (e.scheduleJob fresh.job due payload).engine.Sound none ∧
      e.KeepsEnded (e.scheduleJob fresh.job due payload).engine
    unfold Engine.scheduleJob
    split <;> exact same rfl rfl rfl rfl
  | refuseNextCompletion task =>
    change (e.refuseNextCompletion task).Sound none ∧ e.KeepsEnded (e.refuseNextCompletion task)
    unfold Engine.refuseNextCompletion
    split <;> exact same rfl rfl rfl rfl
  | setAvailable available => exact same rfl rfl rfl rfl

/-- The names of instances and tasks after a call are those from before and the ones the call was given. -/
theorem NamedBy.step {names : List FreshNames} (named : e.NamedBy names) (now : Instant) (fresh : FreshNames)
    {kind : AnswerKind} (operation : Operation kind) :
    (e.step now fresh operation).engine.NamedBy (names ++ [fresh]) := by
  have kept : e.NamedBy (names ++ [fresh]) := by
    refine ⟨fun run atRun => ?_, fun record atRecord => ?_⟩
    · obtain ⟨given, atGiven, same⟩ := named.instances run atRun
      exact ⟨given, List.mem_append_left _ atGiven, same⟩
    · obtain ⟨given, atGiven, same⟩ := named.tasks record atRecord
      exact ⟨given, List.mem_append_left _ atGiven, same⟩
  have newest : fresh ∈ names ++ [fresh] := List.mem_append_right _ (List.mem_singleton_self fresh)
  have rewritten {after : Engine} (rewrites : ∃ change, e.Rewrites after change) :
      after.NamedBy (names ++ [fresh]) := by
    obtain ⟨change, rewrites⟩ := rewrites
    refine ⟨rewrites.instances ▸ kept.instances, fun record atRecord => ?_⟩
    rw [rewrites.tasks] at atRecord
    obtain ⟨old, atOld, rfl⟩ := List.mem_map.mp atRecord
    rw [(rewrites.keeps old).id]
    exact kept.tasks old atOld
  have ordinary (plain : operation.isPlain = true) :
      (e.step now fresh operation).engine.NamedBy (names ++ [fresh]) := by
    obtain ⟨begun, ordinary, new⟩ := ordinary_step e now fresh plain
    refine ⟨fun run atRun => ?_, fun record atRecord => ?_⟩
    · have atIds := List.mem_map_of_mem (f := ProcessInstance.id) atRun
      rw [ordinary.instances, List.mem_append] at atIds
      rcases atIds with old | begins
      · obtain ⟨other, atOther, same⟩ := List.mem_map.mp old
        exact same ▸ kept.instances other atOther
      · rcases new with rfl | ⟨rfl, _⟩
        · cases begins
        · exact ⟨fresh, newest, List.mem_singleton.mp begins⟩
    · rcases ordinary.records record atRecord with old | opened
      · exact kept.tasks record old.1
      · exact ⟨fresh, newest, opened.1.id⟩
  cases operation with
  | lease request => exact rewritten (rewrites_lease e now request)
  | failure task worker report => exact rewritten (rewrites_reportFailure e now fresh.incident task worker report)
  | deploy definition =>
    obtain ⟨instances, tasks, _⟩ := deploy_rest e definition
    exact ⟨instances ▸ kept.instances, tasks ▸ kept.tasks⟩
  | setAvailable available => exact ⟨kept.instances, kept.tasks⟩
  | _ => exact ordinary rfl

theorem NamedBy.newTo {names : List FreshNames} (named : e.NamedBy names) {fresh : FreshNames}
    (apart : ∀ given ∈ names, given.Apart fresh) : fresh.NewTo e := by
  refine ⟨fun run atRun => ?_, fun record atRecord => ?_⟩
  · obtain ⟨given, atGiven, same⟩ := named.instances run atRun
    exact same ▸ (apart given atGiven).instanceId
  · obtain ⟨given, atGiven, same⟩ := named.tasks record atRecord
    exact same ▸ (apart given atGiven).task

/-- After every run in which no name is brought twice, the engine is in order. -/
theorem run_sound {moves : List EngineMove} (fresh : FreshMoves moves) :
    (empty.run moves).Sound none ∧ (empty.run moves).NamedBy (namesOf moves) := by
  induction moves using List.reverseRecOn with
  | nil => exact ⟨sound_empty, by simp [empty], by simp [empty]⟩
  | append_singleton before move ih =>
    obtain ⟨sound, named⟩ := ih fresh.left
    rw [run_append, run_cons, run_nil, namesOf_append]
    cases move with
    | endJob job =>
      refine ⟨sound.of_eq rfl rfl rfl rfl, ?_⟩
      rw [show namesOf [EngineMove.endJob job] = [] from rfl, List.append_nil]
      exact ⟨named.instances, named.tasks⟩
    | call now names operation =>
      have new : names.NewTo (empty.run before) := named.newTo fun given atGiven =>
        fresh.apart atGiven (List.mem_singleton_self names)
      exact ⟨(sound.step now new operation).1, named.step now names operation⟩

/-- Whatever calls follow, what has ended stays as it ended. -/
theorem run_keepsEnded {moves more : List EngineMove} (fresh : FreshMoves (moves ++ more)) :
    (empty.run moves).KeepsEnded (empty.run (moves ++ more)) := by
  induction more using List.reverseRecOn with
  | nil => exact .of_eq (by rw [List.append_nil])
  | append_singleton before move ih =>
    rw [← List.append_assoc] at fresh ⊢
    refine (ih fresh.left).trans ?_
    obtain ⟨sound, named⟩ := run_sound fresh.left
    rw [run_append _ (moves ++ before), run_cons, run_nil]
    cases move with
    | endJob job => exact .of_eq rfl
    | call now names operation =>
      have new : names.NewTo (empty.run (moves ++ before)) :=
        named.newTo fun given atGiven => fresh.apart atGiven (List.mem_singleton_self names)
      exact (sound.step now new operation).2

/-- The open task of an instance is its only one, and an instance without one is not active. -/
theorem Sound.active_iff (sound : e.Sound none) {run : ProcessInstance} (atRun : run ∈ e.instances) :
    run.state = .active ↔ ∃ record, e.recordsOf run.id = [record] := by
  have listed {record : TaskRecord} : record ∈ e.recordsOf run.id ↔
      record ∈ e.tasks ∧ record.task.instanceId = run.id := by
    simp [recordsOf, List.mem_filter]
  constructor
  · intro active
    obtain ⟨record, atRecord, owner⟩ := (sound.waiting run atRun active).resolve_left (by simp)
    have distinct : ((e.recordsOf run.id).map fun record => record.task.instanceId).Nodup :=
      sound.one_task.sublist (List.filter_sublist.map _)
    have member : record ∈ e.recordsOf run.id := listed.mpr ⟨atRecord, owner⟩
    -- two records of the instance would have its id in common
    cases records : e.recordsOf run.id with
    | nil => simp [records] at member
    | cons first rest =>
      cases rest with
      | nil => exact ⟨first, rfl⟩
      | cons second rest =>
        have ownerOf (record : TaskRecord) (among : record ∈ first :: second :: rest) :
            record.task.instanceId = run.id := (listed.mp (records ▸ among)).2
        rw [records] at distinct
        have apart := (List.pairwise_cons.mp distinct).1 second.task.instanceId (by simp)
        exact absurd ((ownerOf first (by simp)).trans (ownerOf second (by simp)).symm) apart
  · rintro ⟨record, single⟩
    obtain ⟨atRecord, owner⟩ := listed.mp (single ▸ List.mem_singleton_self record)
    obtain ⟨other, atOther, own⟩ := sound.belongs record atRecord
    rw [sound.instance_unique atRun atOther (owner.symm.trans own.instanceId)]
    exact own.active

/-- After any calls with names of their own, an instance is active just as long as it has its one open
task, every open task is that of an active instance which waits in the task's activity, tasks are told
apart by their place in the order of creation, and no further calls change how an instance ended. -/
theorem run_instances (moves more : List EngineMove) (fresh : FreshMoves (moves ++ more)) :
    (∀ run ∈ (empty.run moves).instances,
      run.state = .active ↔ ∃ record, (empty.run moves).recordsOf run.id = [record]) ∧
    (∀ record ∈ (empty.run moves).tasks, ∃ run,
      (empty.run moves).instance? record.task.instanceId = some run ∧ record.task.BelongsTo run) ∧
    ((empty.run moves).tasks.map TaskRecord.sequence).Nodup ∧
    ∀ run ∈ (empty.run moves).instances, run.isEnded → ∃ later,
      (empty.run (moves ++ more)).instance? run.id = some later ∧ run.SameEnd later := by
  obtain ⟨sound, _⟩ := run_sound fresh.left
  refine ⟨fun run atRun => sound.active_iff atRun, fun record atRecord => ?_, ?_, fun run atRun ended => ?_⟩
  · obtain ⟨run, atRun, own⟩ := sound.belongs record atRecord
    exact ⟨run, own.instanceId ▸ sound.instance?_eq atRun, own⟩
  · exact List.pairwise_map.mpr (sound.ordered.imp fun before => Nat.ne_of_lt before)
  · obtain ⟨later, atLater, same⟩ := run_keepsEnded fresh run atRun ended
    have found := (run_sound fresh).1.instance?_eq atLater
    rw [same.id] at found
    exact ⟨later, found, same⟩

/-- An instance that waited in its one activity has completed, and stays so whatever its definition
becomes. -/
theorem run_instances_completed :
    let pay : Activity := ⟨"pay", .serviceTask, some "money", none⟩
    let moves : List EngineMove :=
      [.call .epoch ⟨"a", "a", "a", "a", "a"⟩ (.deploy ⟨"order", [pay]⟩),
        .call .epoch ⟨"b", "b", "b", "b", "b"⟩ (.start "order" none .empty),
        .call .epoch ⟨"c", "c", "c", "c", "c"⟩ (.lease ⟨1, "w", "money", .zero, .all, none⟩),
        .call .epoch ⟨"d", "d", "d", "d", "d"⟩ (.complete "b" "w" .empty)]
    let more : List EngineMove := [.call .epoch ⟨"e", "e", "e", "e", "e"⟩ (.deploy ⟨"order", []⟩)]
    (empty.run moves).instances.map ProcessInstance.state = [.completed] ∧
      ∀ run ∈ (empty.run moves).instances, run.isEnded → ∃ later,
        (empty.run (moves ++ more)).instance? run.id = some later ∧ run.SameEnd later :=
  ⟨by decide, (run_instances _ _ (by decide)).2.2.2⟩

end Engine

end TaskLeasing
