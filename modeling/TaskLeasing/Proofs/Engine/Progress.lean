import TaskLeasing.Proofs.Engine.Tending

namespace TaskLeasing

/-- The activities that instances wait in, each with its topic. -/
def externals (activities : List Activity) : List (String × String) :=
  activities.filterMap fun activity => activity.externalTopic.map fun topic => (activity.id, topic)

theorem externals_append (before after : List Activity) :
    externals (before ++ after) = externals before ++ externals after := List.filterMap_append

/-- What goes on with a list of activities enters them all, or waits in the first one bound to a topic. -/
theorem enteredOf_cases (activities : List Activity) :
    (waitsIn? activities = none ∧ externals activities = [] ∧ enteredOf activities = activities) ∨
      ∃ passed activity topic rest, activities = passed ++ activity :: rest ∧ externals passed = [] ∧
        activity.externalTopic = some topic ∧ waitsIn? activities = some (activity, topic) ∧
          enteredOf activities = passed ++ [activity] := by
  induction activities with
  | nil => exact .inl ⟨rfl, rfl, rfl⟩
  | cons first rest ih =>
    cases bound : first.externalTopic with
    | some topic =>
      exact .inr ⟨[], first, topic, rest, rfl, rfl, bound, by simp [waitsIn?, bound], by simp [enteredOf, bound]⟩
    | none =>
      rcases ih with ⟨waits, free, entered⟩ | ⟨passed, activity, topic, later, rfl, free, bound', waits, entered⟩
      · exact .inl ⟨by simp [waitsIn?, bound, waits], by simpa [externals, bound] using free,
          by simp [enteredOf, bound, entered]⟩
      · exact .inr ⟨first :: passed, activity, topic, later, rfl, by simpa [externals, bound] using free, bound',
          by simp [waitsIn?, bound, waits], by simp [enteredOf, bound, entered]⟩

/-- How far an instance has got in its activities, told by those that it has waited in before. -/
inductive ProcessInstance.Reached (run : ProcessInstance) (activities : List Activity) :
    List (String × String) → Prop
  | waits {passed rest : List Activity} {activity : Activity} {topic : String}
      (split : activities = passed ++ activity :: rest) (bound : activity.externalTopic = some topic)
      (active : run.state = .active) (current : run.currentActivity = some activity.id)
      (history : run.history = (passed ++ [activity]).map Activity.id) : run.Reached activities (externals passed)
  | completed (state : run.state = .completed) (history : run.history = activities.map Activity.id) :
      run.Reached activities (externals activities)

/-- An instance that has passed some activities and goes on with the rest reaches the next that it has to wait in, or
the end. -/
theorem ProcessInstance.reached_goOn {run : ProcessInstance} {passed rest : List Activity}
    (active : run.state = .active) (history : run.history = passed.map Activity.id) :
    (run.goOn rest).Reached (passed ++ rest) (externals passed) := by
  have all {more : List Activity} (free : externals more = []) : externals passed = externals (passed ++ more) := by
    rw [externals_append, free, List.append_nil]
  rcases enteredOf_cases rest with ⟨waits, free, entered⟩ |
    ⟨more, activity, topic, later, rfl, free, bound, waits, entered⟩
  · rw [all free]
    refine .completed ?_ ?_
    · simp [goOn, waits, active]
    · simp [goOn, entered, history]
  · rw [all free]
    refine .waits (List.append_assoc _ _ _).symm bound ?_ ?_ ?_
    · simp [goOn, waits, active]
    · simp [goOn, waits]
    · simp [goOn, entered, history]

/-- After an activity come those that follow it, where no two have one name. -/
theorem ProcessDefinition.drop_after {definition : ProcessDefinition} {passed rest : List Activity}
    {activity : Activity}
    (distinct : (definition.activities.map Activity.id).Nodup)
    (split : definition.activities = passed ++ activity :: rest) :
    definition.activities.drop (definition.after activity.id) = rest := by
  have others : ∀ other ∈ passed, other.id ≠ activity.id := by
    rw [split, List.map_append, List.map_cons] at distinct
    intro other member same
    exact (List.nodup_append.mp distinct).2.2 _ (List.mem_map_of_mem member) _ (List.mem_cons_self ..) same
  have place : definition.position? activity.id = some passed.length := by
    have before : passed.findIdx? (fun a => a.id = activity.id) = none := by simpa using others
    rw [position?, split, List.findIdx?_append, before]
    simp [List.findIdx?_cons]
  rw [after, place, split]
  simp

/-- An instance that goes on after the activity that it waits in has waited in that one, too. -/
theorem ProcessInstance.Reached.goesOn {run : ProcessInstance} {definition : ProcessDefinition}
    {ended : List (String × String)} (reached : run.Reached definition.activities ended)
    (distinct : (definition.activities.map Activity.id).Nodup) (active : run.state = .active) {activity topic : String}
    (current : run.currentActivity = some activity)
    (bound : (definition.find? activity).bind Activity.externalTopic = some topic) (vars : Variables) :
    (({ run with vars := vars } : ProcessInstance).goOn
      (definition.activities.drop (definition.after activity))).Reached definition.activities
        (ended ++ [(activity, topic)]) := by
  cases reached with
  | completed state =>
    rw [active] at state
    cases state
  | @waits passed rest waited name split bound' _ current' history =>
    obtain rfl : waited.id = activity := Option.some.inj (current'.symm.trans current)
    have found : definition.find? waited.id = some waited := find?_key distinct (by rw [split]; simp)
    rw [found, Option.bind_some, bound', Option.some.injEq] at bound
    subst bound
    have passes : externals passed ++ [(waited.id, name)] = externals (passed ++ [waited]) := by
      simp [externals, bound']
    have whole : definition.activities = (passed ++ [waited]) ++ rest := by rw [split, List.append_assoc]; rfl
    have onward : (({ run with vars := vars } : ProcessInstance).goOn rest).Reached ((passed ++ [waited]) ++ rest)
        (externals (passed ++ [waited])) := ProcessInstance.reached_goOn active history
    rw [ProcessDefinition.drop_after distinct split, passes]
    rwa [← whole] at onward

/-- The record of the task that an instance comes to wait for when it goes on with activities, if it comes to wait. -/
def ProcessInstance.opens (run : ProcessInstance) (freshTask : String) (place : Nat) (activities : List Activity) :
    List TaskRecord :=
  (waitsIn? activities).toList.map fun target =>
    ⟨run.openTask run.definitionKey target.1.id target.2 freshTask, none, place⟩

/-- What comes of a call that lets an instance of an engine go on with activities. -/
structure Reply.LetsGoOn {α : Type} (reply : Reply α) (e : Engine) (run : ProcessInstance) (freshTask : String)
    (activities : List Activity) : Prop where
  instances : reply.engine.instances = e.instances.map fun r => if r.id = run.id then r.goOn activities else r
  tasks : reply.engine.tasks = e.tasks ++ run.opens freshTask (e.sequence + 1) activities
  definitions : reply.engine.definitions = e.definitions
  available : reply.engine.available = e.available
  refusals : reply.engine.refusals = e.refusals
  incidents : reply.engine.incidents = e.incidents
  jobs : reply.engine.jobs = e.jobs

/-- An instance after the one of an id was given results and went on with activities. -/
def ProcessInstance.afterResults (r : ProcessInstance) (id : String) (results : Variables)
    (activities : List Activity) : ProcessInstance :=
  if r.id = id then ({ r with vars := r.vars.extend results } : ProcessInstance).goOn activities else r

theorem ProcessInstance.afterResults_id (r : ProcessInstance) (id : String) (results : Variables)
    (activities : List Activity) : (r.afterResults id results activities).id = r.id := by
  unfold afterResults
  split <;> rfl

namespace Engine

variable {e : Engine}

/-- A completion that lets the instance of its task go on leaves the other instances as they are. -/
theorem instances_completing {reply : Reply Unit} {record : TaskRecord} {results : Variables} {run : ProcessInstance}
    {fresh : String} {activities : List Activity} (own : record.task.BelongsTo run)
    (goesOn : reply.LetsGoOn (e.completing record results) { run with vars := run.vars.extend results } fresh
      activities) :
    reply.engine.instances = e.instances.map fun r => r.afterResults run.id results activities := by
  rw [goesOn.instances, completing, modifyInstance, own.instanceId]
  simp only [List.map_map]
  refine List.map_congr_left fun r _ => ?_
  by_cases same : r.id = run.id <;> simp [ProcessInstance.afterResults, same]

theorem letsGoOn_advance {run : ProcessInstance} {definition : ProcessDefinition}
    (running : e.running run.id = .ok (run, definition)) (place : Nat) (freshTask : String) :
    (e.advance run.id place freshTask).LetsGoOn e run freshTask (definition.activities.drop place) := by
  have key : definition.key = run.definitionKey := definition?_key (running_ok running).2
  unfold advance
  simp only [running, walk_engine, key]
  cases waits : waitsIn? (definition.activities.drop place) with
  | none => exact ⟨rfl, by simp [ProcessInstance.opens, waits, modifyInstance], rfl, rfl, rfl, rfl, rfl⟩
  | some target => exact ⟨rfl, by simp [ProcessInstance.opens, waits, modifyInstance, addTask], rfl, rfl, rfl, rfl, rfl⟩

/-- An instance as it is started. -/
def newInstance (fresh : FreshNames) (key : String) (businessKey : Option String) (vars : Variables) :
    ProcessInstance :=
  ⟨fresh.instanceId, key, businessKey, fresh.execution, vars, none, .active, [], []⟩

/-- An instance of a definition that is deployed begins with the first of its activities. -/
theorem Sound.start_letsGoOn (sound : e.Sound none) (available : e.available = true) {fresh : FreshNames}
    (new : fresh.NewTo e) {key : String} {definition : ProcessDefinition}
    (found : e.definition? key = some definition) (businessKey : Option String) (vars : Variables) :
    let run := newInstance fresh key businessKey vars
    (e.start fresh key businessKey vars).result = .ok fresh.instanceId ∧
      (e.start fresh key businessKey vars).LetsGoOn (e.addInstance run) run fresh.task definition.activities := by
  intro run
  have added : (e.addInstance run).Sound (some run.id) := sound.addInstance found rfl new.instances
  obtain ⟨other, found', running⟩ := added.running_eq (List.mem_append_right _ (List.mem_singleton_self run))
  obtain rfl := Option.some.inj (found.symm.trans found')
  have goesOn := letsGoOn_advance running 0 fresh.task
  have accepted := added.advance_ok 0 fresh.task
  have started : e.start fresh key businessKey vars = ⟨((e.addInstance run).advance run.id 0 fresh.task).engine,
      ((e.addInstance run).advance run.id 0 fresh.task).result.map fun _ => run.id,
      ((e.addInstance run).advance run.id 0 fresh.task).started⟩ := by
    unfold Engine.start
    simp only [available, not_true_eq_false, if_false, found, Option.isNone_some, Bool.false_eq_true]
    rfl
  rw [started, accepted]
  exact ⟨rfl, ⟨goesOn.instances, goesOn.tasks, goesOn.definitions, goesOn.available, goesOn.refusals,
    goesOn.incidents, goesOn.jobs⟩⟩

/-- What a definition that is not there yields no instance. -/
theorem start_unknown {key : String} (unknown : e.definition? key = none) (fresh : FreshNames)
    (businessKey : Option String) (vars : Variables) :
    ∃ reason, e.start fresh key businessKey vars = e.refuse reason := by
  unfold start
  split
  · exact ⟨_, rfl⟩
  · exact ⟨_, by rw [unknown]; rfl⟩

/-- A completion that nothing stands against lets the instance of the task go on with what follows the task's
activity. -/
theorem Sound.complete_letsGoOn (sound : e.Sound none) (available : e.available = true) {task worker : String}
    {record : TaskRecord} (owned : e.ownedRecord task worker = .ok record) (unhindered : task ∉ e.refusals)
    (fresh : String) (vars : Variables) {run : ProcessInstance} (member : run ∈ e.instances)
    (own : record.task.BelongsTo run) {definition : ProcessDefinition}
    (found : e.definition? run.definitionKey = some definition) :
    (e.complete fresh task worker vars).result = .ok () ∧
      (e.complete fresh task worker vars).LetsGoOn (e.completing record vars) { run with vars := run.vars.extend vars }
        fresh (definition.activities.drop (definition.after record.task.activity)) := by
  obtain ⟨other, found', step⟩ := sound.complete_eq available owned unhindered fresh vars
  rw [own.definitionKey, found, Option.some.injEq] at found'
  subst found'
  obtain ⟨atRecord, _, _⟩ := ownedRecord_ok owned
  have changed : ({ run with vars := run.vars.extend vars } : ProcessInstance) ∈ (e.completing record vars).instances :=
    mem_modifyInstance.mpr ⟨run, member, if_pos own.instanceId.symm⟩
  obtain ⟨other, found', running⟩ := (sound.completing atRecord vars).running_eq changed
  obtain rfl := Option.some.inj (found.symm.trans found')
  refine ⟨sound.complete_ok available owned unhindered fresh vars, ?_⟩
  rw [step, own.instanceId]
  exact letsGoOn_advance running _ fresh

end Engine

/-- An instance as it was started. -/
structure Beginning where
  instanceId : String
  definitionKey : String
  vars : Variables

/-- Those of some leases whose tasks belong to an instance. -/
def ofInstance (id : String) (leases : List LeasedTask) : List LeasedTask :=
  leases.filter fun lease => lease.instanceId = id

/-- Variables of an instance over which processors have laid what they made of its tasks, one after the other. -/
def resultsOver (results : RegistrationKey → TaskContext → Variables) (definitionKey : String) (vars : Variables)
    (leases : List LeasedTask) : Variables :=
  leases.foldl (fun vars lease => vars.extend (results ⟨definitionKey, lease.topic⟩ lease.context)) vars

theorem resultsOver_concat (results : RegistrationKey → TaskContext → Variables) (definitionKey : String)
    (vars : Variables) (leases : List LeasedTask) (lease : LeasedTask) :
    resultsOver results definitionKey vars (leases ++ [lease]) =
      (resultsOver results definitionKey vars leases).extend (results ⟨definitionKey, lease.topic⟩ lease.context) := by
  simp [resultsOver]

/-- An instance is as far as the leases tell that were processed so far, with the variables that come of them. -/
structure Engine.Follows (e : Engine) (results : RegistrationKey → TaskContext → Variables)
    (processed : List LeasedTask) (begun : Beginning) (run : ProcessInstance) : Prop where
  id : run.id = begun.instanceId
  definitionKey : run.definitionKey = begun.definitionKey
  vars : run.vars = resultsOver results begun.definitionKey begun.vars (ofInstance begun.instanceId processed)
  reached : ∀ definition, e.definition? begun.definitionKey = some definition → run.Reached definition.activities
    ((ofInstance begun.instanceId processed).map fun lease => (lease.activity, lease.topic))

namespace Engine

variable {e after : Engine} {results : RegistrationKey → TaskContext → Variables} {processed : List LeasedTask}
  {begun : Beginning} {run : ProcessInstance} {lease : LeasedTask}

theorem Follows.of_definitions (follows : e.Follows results processed begun run)
    (same : ∀ definition, after.definition? begun.definitionKey = some definition →
      e.definition? begun.definitionKey = some definition) : after.Follows results processed begun run :=
  { follows with reached := fun definition found => follows.reached definition (same definition found) }

/-- What is processed for others makes no difference. -/
theorem Follows.other (follows : e.Follows results processed begun run) (other : lease.instanceId ≠ run.id) :
    e.Follows results (processed ++ [lease]) begun run := by
  have same : ofInstance begun.instanceId (processed ++ [lease]) = ofInstance begun.instanceId processed := by
    rw [follows.id] at other
    simp [ofInstance, other]
  exact ⟨follows.id, follows.definitionKey, same ▸ follows.vars, same ▸ follows.reached⟩

/-- When the task that an instance waits for has been processed, the instance goes on with the result. -/
theorem Follows.goesOn (follows : e.Follows results processed begun run)
    (simple : ∀ definition ∈ e.definitions, (definition.activities.map Activity.id).Nodup) {record : TaskRecord}
    (own : record.task.BelongsTo run)
    (bound : e.topic? record.task.definitionKey record.task.activity = some record.task.topic)
    {expiry : Instant} {vars : Variables} (given : lease = record.task.leased expiry vars)
    {definition : ProcessDefinition} (found : e.definition? run.definitionKey = some definition) :
    e.Follows results (processed ++ [lease]) begun
      (({ run with vars := run.vars.extend (results ⟨lease.definitionKey, lease.topic⟩ lease.context) } :
        ProcessInstance).goOn (definition.activities.drop (definition.after record.task.activity))) := by
  subst given
  have more : ofInstance begun.instanceId (processed ++ [record.task.leased expiry vars]) =
      ofInstance begun.instanceId processed ++ [record.task.leased expiry vars] := by
    have same : (record.task.leased expiry vars).instanceId = begun.instanceId := own.instanceId.trans follows.id
    simp [ofInstance, same]
  have key : record.task.definitionKey = begun.definitionKey := own.definitionKey.trans follows.definitionKey
  refine ⟨follows.id, follows.definitionKey, ?_, fun other found' => ?_⟩
  · rw [more, resultsOver_concat, ← follows.vars, ← key]
    rfl
  · rw [← follows.definitionKey, found, Option.some.injEq] at found'
    subst found'
    rw [topic?, own.definitionKey, found, Option.bind_some] at bound
    rw [more, List.map_append]
    exact (follows.reached definition (follows.definitionKey ▸ found)).goesOn
      (simple definition (List.mem_of_find?_eq_some found)) own.active own.current bound _

/-- When a task has been processed, its instance goes on with the result, and others do not mind. -/
theorem Follows.afterResults {r : ProcessInstance} (follows : e.Follows results processed begun r)
    (sound : e.Sound none)
    (simple : ∀ definition ∈ e.definitions, (definition.activities.map Activity.id).Nodup) {record : TaskRecord}
    (atR : r ∈ e.instances) (atRun : run ∈ e.instances) (own : record.task.BelongsTo run)
    (bound : e.topic? record.task.definitionKey record.task.activity = some record.task.topic)
    {expiry : Instant} {vars : Variables} (given : lease = record.task.leased expiry vars)
    {definition : ProcessDefinition} (found : e.definition? run.definitionKey = some definition) :
    e.Follows results (processed ++ [lease]) begun
      (r.afterResults run.id (results ⟨lease.definitionKey, lease.topic⟩ lease.context)
        (definition.activities.drop (definition.after record.task.activity))) := by
  by_cases same : r.id = run.id
  · obtain rfl := sound.instance_unique atR atRun same
    rw [ProcessInstance.afterResults, if_pos rfl]
    exact follows.goesOn simple own bound given found
  · rw [ProcessInstance.afterResults, if_neg same]
    refine follows.other fun owner => same ?_
    rw [← owner, given]
    exact own.instanceId

/-- An instance that is new has had nothing processed. -/
theorem follows_new {fresh : FreshNames} {key : String} {definition : ProcessDefinition}
    (found : e.definition? key = some definition) (unknown : ∀ lease ∈ processed, lease.instanceId ≠ fresh.instanceId)
    (businessKey : Option String) (vars : Variables) :
    e.Follows results processed ⟨fresh.instanceId, key, vars⟩
      ((newInstance fresh key businessKey vars).goOn definition.activities) := by
  have none' : ofInstance fresh.instanceId processed = [] := by simpa [ofInstance] using unknown
  refine ⟨rfl, rfl, ?_, fun other found' => ?_⟩
  · rw [none']
    rfl
  · obtain rfl := Option.some.inj (found.symm.trans found')
    rw [none']
    have reached : ((newInstance fresh key businessKey vars).goOn definition.activities).Reached
        ([] ++ definition.activities) (externals []) := ProcessInstance.reached_goOn rfl rfl
    exact reached

end Engine

end TaskLeasing
