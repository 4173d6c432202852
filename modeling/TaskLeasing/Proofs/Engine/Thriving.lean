import TaskLeasing.Proofs.Engine.Lending

namespace TaskLeasing

/-- The key of the registration that a leased task is processed by. -/
def LeasedTask.key (lease : LeasedTask) : RegistrationKey := ⟨lease.definitionKey, lease.topic⟩

/-- An engine in which nothing has gone wrong. It refuses no call, its definitions name their activities apart, and
each open task is for the topic that its activity is bound to. -/
structure Engine.Clear (e : Engine) : Prop where
  available : e.available = true
  refusals : e.refusals = []
  incidents : e.incidents = []
  jobs : e.jobs = []
  simple : ∀ definition ∈ e.definitions, (definition.activities.map Activity.id).Nodup
  topics : ∀ record ∈ e.tasks, e.topic? record.task.definitionKey record.task.activity = some record.task.topic

/-- A clear engine that has lent tasks to one worker, and in which every instance that was started is as far as the
leases tell that were processed. -/
structure Engine.Thrives (e : Engine) (results : RegistrationKey → TaskContext → Variables) (worker : String)
    (held processed : List LeasedTask) (begun : List Beginning) : Prop extends Engine.Clear e where
  lends : e.Lends worker held
  known : ∀ lease ∈ processed, ∃ run ∈ e.instances, run.id = lease.instanceId
  began : e.instances.map ProcessInstance.id = begun.map Beginning.instanceId
  follows : ∀ start ∈ begun, ∃ run ∈ e.instances, e.Follows results processed start run

/-- What a call adds to the open tasks that are free: one that it opens, if any. -/
structure Reply.Brings {α : Type} (reply : Reply α) (e : Engine) (opened : Option TaskRecord) : Prop where
  new : ∀ record ∈ opened, record ∈ reply.engine.tasks ∧ record ∉ e.tasks
  idle : ∀ group : ExternalTask → Bool,
    reply.engine.idle group ≤ e.idle group + opened.toList.countP fun record => group record.task

section

variable {α : Type} {reply : Reply α} {e after : Engine} {run : ProcessInstance} {fresh : String}
  {activities : List Activity}

/-- An instance that goes on comes to wait for one task at most. -/
theorem Reply.LetsGoOn.brings (goesOn : reply.LetsGoOn after run fresh activities)
    (fewer : after.tasks.Sublist e.tasks) (new : ∀ record ∈ e.tasks, record.task.id ≠ fresh) :
    ∃ opened, reply.Brings e opened := by
  let opened : Option TaskRecord := (waitsIn? activities).map fun target =>
    ⟨run.openTask run.definitionKey target.1.id target.2 fresh, none, after.sequence + 1⟩
  have tasks : reply.engine.tasks = after.tasks ++ opened.toList := by
    rw [goesOn.tasks, ProcessInstance.opens]
    cases waits : waitsIn? activities <;> simp [opened, waits]
  refine ⟨opened, fun record member => ⟨?_, fun old => ?_⟩, fun group => ?_⟩
  · rw [tasks]
    exact List.mem_append_right _ (Option.mem_toList.mpr member)
  · obtain ⟨target, _, rfl⟩ := Option.map_eq_some_iff.mp member
    exact new _ old rfl
  · exact Nat.le_trans (Engine.idle_append tasks group) (Nat.add_le_add_right fewer.countP_le _)

namespace Engine

theorem topic?_of_definitions (same : after.definitions = e.definitions) (key activity : String) :
    after.topic? key activity = e.topic? key activity := by
  simp only [topic?, definition?, same]

namespace Clear

/-- The activity that an instance comes to wait in is bound to the topic of its task. -/
theorem bound (clear : e.Clear) {key : String} {definition : ProcessDefinition}
    (found : e.definition? key = some definition) {place : Nat} {activity : Activity} {topic : String}
    (waits : waitsIn? (definition.activities.drop place) = some (activity, topic)) :
    e.topic? key activity.id = some topic := by
  obtain ⟨member, bound, _⟩ := waitsIn?_spec waits
  have named : definition.find? activity.id = some activity :=
    find?_key (clear.simple definition (List.mem_of_find?_eq_some found)) (List.mem_of_mem_drop member)
  simp [topic?, found, named, bound]

theorem goesOn (clear : e.Clear) (goesOn : reply.LetsGoOn e run fresh activities)
    (bound : ∀ activity topic, waitsIn? activities = some (activity, topic) →
      e.topic? run.definitionKey activity.id = some topic) : reply.engine.Clear where
  available := goesOn.available.trans clear.available
  refusals := goesOn.refusals.trans clear.refusals
  incidents := goesOn.incidents.trans clear.incidents
  jobs := goesOn.jobs.trans clear.jobs
  simple := goesOn.definitions ▸ clear.simple
  topics := by
    intro record member
    rw [topic?_of_definitions goesOn.definitions]
    rw [goesOn.tasks] at member
    rcases List.mem_append.mp member with old | opened
    · exact clear.topics record old
    · obtain ⟨⟨activity, topic⟩, waits, rfl⟩ := List.mem_map.mp opened
      exact bound activity topic (Option.mem_toList.mp waits)

theorem addInstance (clear : e.Clear) (run : ProcessInstance) : (e.addInstance run).Clear where
  available := clear.available
  refusals := clear.refusals
  incidents := clear.incidents
  jobs := clear.jobs
  simple := clear.simple
  topics := clear.topics

theorem completing (clear : e.Clear) (record : TaskRecord) (vars : Variables) : (e.completing record vars).Clear where
  available := clear.available
  refusals := clear.refusals
  incidents := by
    change e.incidents.map _ = []
    rw [clear.incidents, List.map_nil]
  jobs := clear.jobs
  simple := clear.simple
  topics other member := clear.topics other (List.mem_of_mem_filter member)

theorem lease (clear : e.Clear) {now expiry : Instant} {request : LeaseRequest}
    (accepted : deadline now request.lock = .ok expiry) : (e.lease now request).engine.Clear := by
  rw [lease_eq clear.available accepted]
  refine ⟨clear.available, clear.refusals, clear.incidents, clear.jobs, clear.simple, fun record member => ?_⟩
  obtain ⟨old, atOld, rfl⟩ := List.mem_map.mp member
  have bound := clear.topics old atOld
  split <;> exact bound

end Clear

end Engine

end

namespace Engine

variable {e : Engine} {results : RegistrationKey → TaskContext → Variables} {worker : String}
  {held processed : List LeasedTask} {begun : List Beginning} {fresh : FreshNames}

theorem deploy_new {definition : ProcessDefinition} (new : e.definition? definition.key = none) :
    e.deploy definition = { e with definitions := e.definitions ++ [definition] } := by
  simp only [Engine.deploy, new, Option.isSome_none, Bool.false_eq_true, if_false]

/-- A definition that is new replaces none. -/
theorem definition?_deploy_new {definition other : ProcessDefinition} (new : e.definition? definition.key = none)
    {key : String} (found : e.definition? key = some other) : (e.deploy definition).definition? key = some other := by
  have found : e.definitions.find? (fun d => d.key = key) = some other := found
  rw [deploy_new new, definition?, List.find?_append, found, Option.some_or]

theorem thrives_empty (results : RegistrationKey → TaskContext → Variables) (worker : String) :
    empty.Thrives results worker [] [] [] where
  available := rfl
  refusals := rfl
  incidents := rfl
  jobs := rfl
  simple := by simp [empty]
  topics := by simp [empty]
  lends := ⟨List.nodup_nil, by simp, by simp [empty], by simp [empty]⟩
  known := by simp
  began := rfl
  follows := by simp

namespace Thrives

theorem of_perm (thrives : e.Thrives results worker held processed begun) {others : List LeasedTask}
    (perm : held.Perm others) : e.Thrives results worker others processed begun :=
  { thrives with lends := thrives.lends.of_perm perm }

/-- A task belongs to one of the instances that were started. -/
theorem begunOf (thrives : e.Thrives results worker held processed begun) (sound : e.Sound none)
    {record : TaskRecord} (member : record ∈ e.tasks) : ∃ start ∈ begun, ∃ run ∈ e.instances,
      e.Follows results processed start run ∧ record.task.BelongsTo run := by
  obtain ⟨run, atRun, own⟩ := sound.belongs record member
  have among : run.id ∈ begun.map Beginning.instanceId := thrives.began ▸ List.mem_map_of_mem atRun
  obtain ⟨start, atStart, id⟩ := List.mem_map.mp among
  obtain ⟨other, atOther, follows⟩ := thrives.follows start atStart
  obtain rfl := sound.instance_unique atOther atRun (follows.id.trans id)
  exact ⟨start, atStart, other, atOther, follows, own⟩

/-- What a request is given is lent, and nothing else changes. -/
theorem lease {request : LeaseRequest} (thrives : e.Thrives results request.worker held processed begun)
    (sound : e.Sound none) {now expiry : Instant} (lasting : ∀ lease ∈ held, now < lease.lockExpiry)
    (accepted : deadline now request.lock = .ok expiry) :
    ∃ tasks, (e.lease now request).result = .ok tasks ∧
      (e.lease now request).engine.Thrives results request.worker (held ++ tasks) processed begun := by
  have given : (e.lease now request).result = .ok ((e.chosenFor now request).map (e.handOver request expiry)) := by
    rw [lease_eq thrives.available accepted]
    rfl
  have lends := thrives.lends.lease sound lasting given
  obtain ⟨change, rewrites⟩ := rewrites_lease e now request
  refine ⟨_, given, thrives.toClear.lease accepted, lends, ?_, ?_, fun start among => ?_⟩
  · rw [rewrites.instances]
    exact thrives.known
  · rw [rewrites.instances]
    exact thrives.began
  · obtain ⟨run, atRun, follows⟩ := thrives.follows start among
    refine ⟨run, rewrites.instances ▸ atRun, follows.of_definitions fun definition found => ?_⟩
    rwa [definition?, rewrites.definitions] at found

/-- The result of a task that is held is accepted, and lets the task's instance go on with it. -/
theorem complete {lease : LeasedTask} (thrives : e.Thrives results worker (lease :: held) processed begun)
    (sound : e.Sound none) (new : fresh.NewTo e) :
    let reply := e.complete fresh.task lease.id worker (results lease.key lease.context)
    reply.result = .ok () ∧ reply.engine.Thrives results worker held (processed ++ [lease]) begun ∧
      ∃ opened, reply.Brings e opened := by
  intro reply
  obtain ⟨record, member, backed⟩ := thrives.lends.backed lease (List.mem_cons_self ..)
  obtain ⟨start, atStart, run, atRun, _, own⟩ := thrives.begunOf sound member
  obtain ⟨definition, found⟩ := sound.deployed run atRun
  have owned : e.ownedRecord lease.id worker = .ok record := backed.id ▸ sound.ownedRecord_eq member backed.owner
  obtain ⟨accepted, goesOn⟩ := sound.complete_letsGoOn thrives.available owned (by simp [thrives.refusals]) fresh.task
    (results lease.key lease.context) atRun own found
  have instances := instances_completing own goesOn
  have ids : reply.engine.instances.map ProcessInstance.id = e.instances.map ProcessInstance.id := by
    rw [instances, List.map_map]
    exact List.map_congr_left fun r _ => r.afterResults_id ..
  have tasks : (e.completing record (results lease.key lease.context)).tasks =
      e.tasks.filter fun record => record.task.id ≠ lease.id := by rw [backed.id]; rfl
  have lends := thrives.lends.removeTask tasks
  refine ⟨accepted, ⟨?_, lends.opens goesOn.tasks, ?_, ids.trans thrives.began, fun other among => ?_⟩,
    goesOn.brings (tasks ▸ List.filter_sublist) new.tasks⟩
  · exact (thrives.toClear.completing record _).goesOn goesOn fun activity topic waits =>
      thrives.toClear.bound found waits
  · -- the instance of the task is known, and none is lost
    have still {id : String} (known : ∃ r ∈ e.instances, r.id = id) : ∃ r ∈ reply.engine.instances, r.id = id := by
      have among : id ∈ e.instances.map ProcessInstance.id := List.mem_map.mpr known
      rw [← ids] at among
      exact List.mem_map.mp among
    intro other processed'
    rcases List.mem_append.mp processed' with old | last
    · exact still (thrives.known other old)
    · obtain rfl := List.mem_singleton.mp last
      refine still ⟨run, atRun, own.instanceId.symm.trans ?_⟩
      rw [backed.given]
      rfl
  · obtain ⟨r, atR, follows⟩ := thrives.follows other among
    have onward := follows.afterResults sound thrives.simple atR atRun own (thrives.topics record member) backed.given
      found
    refine ⟨_, instances ▸ List.mem_map_of_mem atR, onward.of_definitions fun other found' => ?_⟩
    rwa [definition?, goesOn.definitions] at found'

/-- An instance of a definition that is deployed begins, and waits for a task or has ended at once. -/
theorem start (thrives : e.Thrives results worker held processed begun) (sound : e.Sound none) (new : fresh.NewTo e)
    {key : String} {definition : ProcessDefinition} (found : e.definition? key = some definition)
    (businessKey : Option String) (vars : Variables) :
    let reply := e.start fresh key businessKey vars
    reply.result = .ok fresh.instanceId ∧ reply.engine.Thrives results worker held processed
      (begun ++ [⟨fresh.instanceId, key, vars⟩]) ∧ ∃ opened, reply.Brings e opened := by
  intro reply
  obtain ⟨accepted, goesOn⟩ := sound.start_letsGoOn thrives.available new found businessKey vars
  let run := (newInstance fresh key businessKey vars).goOn definition.activities
  have instances : reply.engine.instances = e.instances ++ [run] := by
    have others : e.instances.map (fun r => if r.id = fresh.instanceId then r.goOn definition.activities else r) =
        e.instances := by
      conv => rhs; rw [← List.map_id e.instances]
      exact List.map_congr_left fun r atR => if_neg (new.instances r atR)
    rw [goesOn.instances, addInstance, List.map_append, List.map_singleton, if_pos rfl]
    exact congrArg (· ++ [run]) others
  have stays {r : ProcessInstance} (atR : r ∈ e.instances) : r ∈ reply.engine.instances :=
    instances ▸ List.mem_append_left _ atR
  have definitions (key : String) : reply.engine.definition? key = e.definition? key := by
    rw [definition?, goesOn.definitions]
    rfl
  refine ⟨accepted, ⟨?_, ?_, ?_, ?_, ?_⟩, goesOn.brings (.refl _) new.tasks⟩
  · refine (thrives.toClear.addInstance _).goesOn goesOn fun activity topic waits => ?_
    have entered : waitsIn? (definition.activities.drop 0) = some (activity, topic) := waits
    exact thrives.toClear.bound found entered
  · have lends : (e.addInstance (newInstance fresh key businessKey vars)).Lends worker held := thrives.lends.of_eq rfl
    exact lends.opens goesOn.tasks
  · intro lease processed'
    obtain ⟨r, atR, id⟩ := thrives.known lease processed'
    exact ⟨r, stays atR, id⟩
  · rw [instances, List.map_append, List.map_append, thrives.began]
    rfl
  · intro other among
    rcases List.mem_append.mp among with old | last
    · obtain ⟨r, atR, follows⟩ := thrives.follows other old
      exact ⟨r, stays atR, follows.of_definitions fun d found => definitions _ ▸ found⟩
    · obtain rfl := List.mem_singleton.mp last
      have unknown : ∀ lease ∈ processed, lease.instanceId ≠ fresh.instanceId := by
        intro lease processed' same
        obtain ⟨r, atR, id⟩ := thrives.known lease processed'
        exact new.instances r atR (id.trans same)
      refine ⟨run, instances ▸ List.mem_append_right _ (List.mem_singleton_self run), ?_⟩
      exact (follows_new found unknown businessKey vars).of_definitions fun d found => definitions _ ▸ found

/-- A definition that is new makes no difference to the instances there are. -/
theorem deploy (thrives : e.Thrives results worker held processed begun) (sound : e.Sound none)
    {definition : ProcessDefinition} (simple : (definition.activities.map Activity.id).Nodup)
    (new : e.definition? definition.key = none) :
    (e.deploy definition).Thrives results worker held processed begun := by
  have kept {key : String} {other : ProcessDefinition} (found : e.definition? key = some other) :=
    definition?_deploy_new new found
  rw [deploy_new new] at kept ⊢
  refine ⟨⟨thrives.available, thrives.refusals, thrives.incidents, thrives.jobs, fun other member => ?_,
    fun record member => ?_⟩, thrives.lends.of_eq rfl, thrives.known, thrives.began, fun start among => ?_⟩
  · rcases List.mem_append.mp member with old | last
    · exact thrives.simple other old
    · exact List.mem_singleton.mp last ▸ simple
  · have bound := thrives.topics record member
    obtain ⟨_, named, _⟩ := Option.bind_eq_some_iff.mp bound
    obtain ⟨other, found, _⟩ := Option.bind_eq_some_iff.mp named
    rw [topic?, found] at bound
    rw [topic?, kept found]
    exact bound
  · obtain ⟨run, atRun, follows⟩ := thrives.follows start among
    obtain ⟨other, found⟩ := sound.deployed run atRun
    rw [follows.definitionKey] at found
    refine ⟨run, atRun, follows.of_definitions fun d found' => ?_⟩
    rw [kept found] at found'
    exact found' ▸ found

/-- Where no task is open, all instances have come to their end. -/
theorem ended (thrives : e.Thrives results worker held processed begun) (sound : e.Sound none) (done : e.tasks = [])
    {start : Beginning} (among : start ∈ begun) : ∃ run ∈ e.instances, ∃ definition,
      run.id = start.instanceId ∧ e.definition? start.definitionKey = some definition ∧ run.state = .completed ∧
        run.history = definition.activities.map Activity.id ∧
        ((ofInstance start.instanceId processed).map fun lease => (lease.activity, lease.topic)) =
          externals definition.activities ∧
        run.vars = resultsOver results start.definitionKey start.vars (ofInstance start.instanceId processed) := by
  obtain ⟨run, atRun, follows⟩ := thrives.follows start among
  obtain ⟨definition, found⟩ := sound.deployed run atRun
  rw [follows.definitionKey] at found
  have ended : run.state ≠ .active := by
    intro active
    rcases sound.waiting run atRun active with moving | ⟨record, member, _⟩
    · cases moving
    · rw [done] at member
      cases member
  refine ⟨run, atRun, definition, follows.id, found, ?_⟩
  have reached := follows.reached definition found
  generalize (ofInstance start.instanceId processed).map _ = passed at reached ⊢
  cases reached with
  | waits _ _ active => exact absurd active ended
  | completed state history => exact ⟨state, history, rfl, follows.vars⟩

end Thrives

end Engine

end TaskLeasing
