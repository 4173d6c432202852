import TaskLeasing.Proofs.System.Readiness
import TaskLeasing.Proofs.System.Sweeping

namespace TaskLeasing.System

/-- What tells apart the tasks that leases are for: their topic, and their definition if that is asked for, too. -/
def scope (s : System) (registration : Registration) : Option String × String :=
  ((s.leaseRequest registration).definitionKey, registration.key.topic)

/-- Whether leases for a registration are for the same tasks as those for another. -/
def alike (s : System) (registration other : Registration) : Bool := s.scope other = s.scope registration

/-- The instance that a move starts, if it starts one. -/
def beginsIn (s : System) : Move → List Beginning
  | .operate .name (.start key businessKey vars) => match (s.operate (.start key businessKey vars)).1 with
    | .ok id => [⟨id, key, vars⟩]
    | .error _ => []
  | _ => []

/-- A call of the engine that the dispatcher hears of. For each activity that the call announces and a registration
serves, a lease is left to be made. -/
structure Heeds (s after : System) {kind : AnswerKind} (operation : Operation kind) : Prop where
  engine : after.engine = (s.engine.step s.now (s.names.next s.engine) operation).engine
  toDo : ∃ leases : List Registration, after.toDo.Perm (s.toDo ++ leases.map .deferLease) ∧
    (0 < s.listening → ∀ event ∈ (s.engine.step s.now (s.names.next s.engine) operation).started,
      ∀ registration, (after.engine.topic? event.definitionKey event.activity).bind (fun topic =>
        s.registry.lookup ⟨event.definitionKey, topic⟩) = some registration → registration ∈ leases)

/-- What a move comes to, while synchronous processors succeed: the engine rests or is asked for a lease, an attempt
ends, an instance starts, or a definition is deployed. -/
inductive Turn (s : System) (results : RegistrationKey → TaskContext → Variables) (move : Move) : Prop
  | rests (engine : (s.step move).2.engine = s.engine) (leases : s.leasesFor? move = none)
      (ends : s.endsIn move = []) (begins : s.beginsIn move = [])
  | leases {registration : Registration}
      (engine : (s.step move).2.engine = (s.engine.lease s.now (s.leaseRequest registration)).engine)
      (leases : s.leasesFor? move = some registration) (ends : s.endsIn move = []) (begins : s.beginsIn move = [])
  | ends {lease : LeasedTask}
      (heeds : s.Heeds (s.step move).2
        (.complete lease.id s.settings.workerId (results lease.key lease.context)))
      (leases : s.leasesFor? move = none) (ends : s.endsIn move = [lease]) (begins : s.beginsIn move = [])
  | starts {key : String} {businessKey : Option String} {vars : Variables} {definition : ProcessDefinition}
      (found : s.engine.definition? key = some definition) (listening : 0 < s.listening)
      (registered : ∀ activity topic, s.engine.topic? key activity = some topic → s.Registers ⟨key, topic⟩)
      (heeds : s.Heeds (s.step move).2 (.start key businessKey vars)) (leases : s.leasesFor? move = none)
      (ends : s.endsIn move = [])
      (begins : s.beginsIn move = [⟨(s.names.next s.engine).instanceId, key, vars⟩])
  | deploys {definition : ProcessDefinition} (engine : (s.step move).2.engine = s.engine.deploy definition)
      (simple : (definition.activities.map Activity.id).Nodup) (new : s.engine.definition? definition.key = none)
      (leases : s.leasesFor? move = none) (ends : s.endsIn move = []) (begins : s.beginsIn move = [])

/-- A system in which all goes well. For each task that is free, a lease is left to be made. -/
structure Thrives (s : System) (results : RegistrationKey → TaskContext → Variables) (processed : List LeasedTask)
    (begun : List Beginning) : Prop extends Ready s where
  engine : s.engine.Thrives results s.settings.workerId s.held processed begun
  attached : begun ≠ [] → 0 < s.listening
  registered : ∀ start ∈ begun, ∀ activity topic, s.engine.topic? start.definitionKey activity = some topic →
    s.Registers ⟨start.definitionKey, topic⟩
  prompt : ∀ lease ∈ s.held, s.now < lease.lockExpiry
  awaited : ∀ registration, s.engine.idle (s.leaseRequest registration).fits ≤ s.leasesToDo (s.alike registration)

variable {s after middle : System} {results : RegistrationKey → TaskContext → Variables} {move : Move}
  {processed : List LeasedTask} {begun : List Beginning} {registration : Registration}

theorem Heeds.then {kind : AnswerKind} {operation : Operation kind} (heeds : s.Heeds middle operation)
    (engine : after.engine = middle.engine) (toDo : after.toDo.Perm middle.toDo) : s.Heeds after operation := by
  obtain ⟨leases, perm, heard⟩ := heeds.toDo
  refine ⟨engine.trans heeds.engine, leases, toDo.trans perm, ?_⟩
  rw [engine]
  exact heard

theorem Answers.heeds {kind : AnswerKind} {operation : Operation kind} {leases : List Registration}
    (answers : (s.advanced operation).Answers after
      (s.engine.step s.now (s.names.next s.engine) operation).started leases)
    (numbered : s.host.Numbered) (kept : s.Kept) : s.Heeds after operation := by
  have engine : after.engine = (s.advanced operation).engine := answers.defers.engine
  refine ⟨engine, leases, answers.defers.adds.toDo numbered, fun listening event member registration serves => ?_⟩
  rw [engine] at serves
  exact answers.served kept listening event member registration serves

/-- When a processor returns, and its result is accepted, the dispatcher has only to hear of what follows. -/
theorem heeds_endCall (numbered : s.host.Numbered) (kept : s.Kept) {number : Nat} {call : ProcessorCall}
    {lease : LeasedTask} (pending : s.calls.find? (fun other => other.number = number) = some call)
    (subject : call.subject = .process lease) {vars : Variables}
    (accepted : (s.engine.complete (s.names.next s.engine).task lease.id call.worker vars).result = .ok ()) :
    s.Heeds (s.endCall number .process (.returned vars)).2 (.complete lease.id call.worker vars) := by
  let dropped := s.dropCall number
  let operation : Operation .done := .complete lease.id call.worker vars
  have asked : dropped.ask operation = (.ok (), (dropped.ask operation).2) := ask_eq accepted
  have ended : (dropped.endProcess call lease (.returned vars)).2 =
      ((dropped.ask operation).2.conclude lease .completed).2 := by
    simp only [System.endProcess, Attempt.result]
    rw [asked]
  obtain ⟨leases, answers⟩ := dropped.answers_ask operation fun _ _ => rfl
  have heeds : s.Heeds (dropped.ask operation).2 operation :=
    have heeds := Answers.heeds answers numbered kept
    ⟨heeds.engine, heeds.toDo⟩
  have concluded := (dropped.ask operation).2.adds_conclude lease .completed
  have finished := concluded.then (adds_finishCall _ call)
  have numbered := answers.defers.numbered numbered
  rw [endCall_process pending subject, ended]
  refine heeds.then ?_ ?_
  · exact ((does_conclude _ _ _).asks.trans (asks_finishCall _ call)).engine
  · simpa only [List.append_nil] using finished.toDo numbered

/-- Nothing happens to the engine while the host only has an action wait for a permit. -/
theorem engine_untaken {action : Nat} (up : move = .start action ∨ move = .resume action)
    (untaken : s.taken? move = none) : (s.step move).2.engine = s.engine ∧ s.leasesFor? move = none := by
  rcases up with rfl | rfl <;> simp only [taken?] at untaken <;> simp only [System.step, leasesFor?] <;> split
  · next found =>
    have idle : (s.host.start action).running? action = none := by simpa only [found, if_true,
      Option.map_eq_none_iff] using untaken
    simp only [System.runAction, idle, Option.bind_none, and_self]
  · exact ⟨rfl, rfl⟩
  · next found =>
    have idle : (s.host.resume action).running? action = none := by simpa only [found, if_true,
      Option.map_eq_none_iff] using untaken
    simp only [System.runAction, idle, Option.bind_none, and_self]
  · exact ⟨rfl, rfl⟩

/-- What a move in which the host takes up an action comes to. -/
theorem Ready.turn_taken (ready : s.Ready) (registered : ∀ lease ∈ s.handed, s.Registers lease.key) {work : Work}
    (taken : s.taken? move = some work) (ends : s.endsIn move = []) (begins : s.beginsIn move = []) :
    s.Turn results move := by
  obtain ⟨host, a, same, _, runs, _, step⟩ := taken?_step ready.numbered taken
  have leases := leasesFor?_taken taken
  subst same
  cases work : a.work with
  | lease registration =>
    rw [work] at leases
    refine .leases ?_ leases ends begins
    rw [step]
    simp only [System.runAction, runs, work]
    exact ((asks_finishAction _ _).engine).trans (does_leaseLogged { s with host := host } registration).engine.2
  | deferLease registration =>
    rw [work] at leases
    refine .rests ?_ leases ends begins
    rw [step]
    simp only [System.runAction, runs, work]
    exact (asks_finishAction _ _).engine
  | deferRetry registration delay =>
    rw [work] at leases
    refine .rests ?_ leases ends begins
    rw [step]
    simp only [System.runAction, runs, work]
    exact (asks_finishAction _ _).engine
  | handOut tasks =>
    rw [work] at leases
    refine .rests ?_ leases ends begins
    rw [step]
    simp only [System.runAction, runs, work]
    exact ((asks_runAsyncs { s with host := host } "process" tasks).trans (asks_finishAction _ _)).engine
  | process lease =>
    rw [work] at leases taken
    have handed : lease ∈ s.handed :=
      List.mem_flatMap.mpr ⟨_, taken?_mem ready.numbered taken, List.mem_singleton_self lease⟩
    obtain ⟨_, _, _, _, _, engine⟩ := runAction_process (s := { s with host := host }) runs work
      (registered lease handed)
    exact .rests (step ▸ engine) leases ends begins
  | compensate task worker vars error =>
    rw [work] at taken
    exact absurd trivial (ready.plain _ (taken?_mem ready.numbered taken))

theorem Ready.turn_up (ready : s.Ready) (registered : ∀ lease ∈ s.handed, s.Registers lease.key) {action : Nat}
    (up : move = .start action ∨ move = .resume action) : s.Turn results move := by
  have ends : s.endsIn move = [] := by rcases up with rfl | rfl <;> rfl
  have begins : s.beginsIn move = [] := by rcases up with rfl | rfl <;> rfl
  cases taken : s.taken? move with
  | some work => exact ready.turn_taken registered taken ends begins
  | none =>
    obtain ⟨engine, leases⟩ := engine_untaken up taken
    exact .rests engine leases ends begins

namespace Thrives

variable (thrives : s.Thrives results processed begun)
include thrives

/-- Open tasks have processors registered for them. -/
theorem registers {record : TaskRecord} (member : record ∈ s.engine.tasks) :
    s.Registers ⟨record.task.definitionKey, record.task.topic⟩ := by
  obtain ⟨start, among, run, _, follows, own⟩ := thrives.engine.begunOf thrives.orderly.sound member
  have key : record.task.definitionKey = start.definitionKey := own.definitionKey.trans follows.definitionKey
  rw [key]
  exact thrives.registered start among record.task.activity _ (key ▸ thrives.engine.topics record member)

theorem registers_held {lease : LeasedTask} (member : lease ∈ s.held) : s.Registers lease.key := by
  obtain ⟨record, atRecord, backed⟩ := thrives.engine.lends.backed lease member
  have registers := thrives.registers atRecord
  rw [backed.given]
  exact registers

theorem registers_handed {lease : LeasedTask} (member : lease ∈ s.handed) : s.Registers lease.key :=
  thrives.registers_held (List.mem_append_left _ member)

theorem turn_operate {kind : AnswerKind} (operation : Operation kind)
    (suits : s.Suits results (.operate kind operation)) : s.Turn results (.operate kind operation) := by
  cases operation with
  | deploy definition => exact .deploys rfl suits.1 suits.2 rfl rfl rfl
  | start key businessKey vars =>
    have new := thrives.orderly.newTo thrives.apart
    obtain ⟨leases, answers⟩ := s.answers_call (.start key businessKey vars)
    have heeds : s.Heeds (s.step (.operate .name (.start key businessKey vars))).2 (.start key businessKey vars) :=
      answers.heeds thrives.numbered thrives.kept
    have result : (s.operate (.start key businessKey vars)).1 =
        (s.engine.start (s.names.next s.engine) key businessKey vars).result := rfl
    cases found : s.engine.definition? key with
    | none =>
      obtain ⟨reason, refused⟩ := Engine.start_unknown found (s.names.next s.engine) businessKey vars
      refine .rests ?_ rfl rfl ?_
      · exact heeds.engine.trans (congrArg Reply.engine refused)
      · simp only [beginsIn, result, refused, Engine.refuse]
    | some definition =>
      obtain ⟨accepted, _⟩ := thrives.engine.start thrives.orderly.sound new found businessKey vars
      refine .starts found suits.1 (fun activity topic bound => ?_) heeds rfl rfl ?_
      · rw [Engine.topic?, found, Option.bind_some] at bound
        obtain ⟨a, named, bound⟩ := Option.bind_eq_some_iff.mp bound
        obtain ⟨registration, at', sync⟩ := suits.2 definition found a (List.mem_of_find?_eq_some named) topic bound
        exact ⟨registration, at', sync⟩
      · simp only [beginsIn, result, accepted]
  | _ => cases suits

/-- The processor of a call returns its result, which is accepted. -/
theorem turn_answer (number : Nat) (kind : CallKind) (attempt : Attempt kind.Value)
    (suits : s.Suits results (.answer number kind attempt)) : s.Turn results (.answer number kind attempt) := by
  cases answered : s.answered? (.answer number kind attempt) with
  | none =>
    refine .rests (congrArg System.engine (endCall_unanswered answered)) rfl ?_ rfl
    rw [endsIn, answered]
    rfl
  | some call =>
    obtain ⟨pending, asked⟩ := Option.filter_eq_some_iff.mp answered
    have member := List.mem_of_find?_eq_some pending
    obtain ⟨lease, subject, key, _⟩ := thrives.synchronous call member
    obtain rfl : kind = .process := by
      rw [subject] at asked
      exact (of_decide_eq_true asked).symm
    have ends : s.endsIn (.answer number .process attempt) = [lease] := by
      rw [endsIn, answered, Option.bind_some, subject]
      rfl
    have numbered : call.number = number := by simpa using List.find?_some pending
    obtain rfl := suits call member numbered lease subject
    have attempted : s.attempted.Perm (lease :: (s.dropCall number).attempted) := by
      have dropped := attempted_dropped thrives.distinct pending
      rwa [subject] at dropped
    have held : s.held.Perm (lease :: (s.handed ++ (s.dropCall number).attempted)) :=
      (attempted.append_left _).trans List.perm_middle
    obtain ⟨accepted, _⟩ := (thrives.engine.of_perm held).complete thrives.orderly.sound
      (thrives.orderly.newTo thrives.apart)
    rw [← thrives.hosted.own call member, ← key] at accepted
    have heeds := heeds_endCall thrives.numbered thrives.kept pending subject accepted
    rw [thrives.hosted.own call member, key] at heeds
    refine .ends ?_ rfl ends rfl
    rw [key]
    exact heeds

/-- Every move that suits the system comes to one of these. -/
theorem turn (suits : s.Suits results move) : s.Turn results move := by
  cases move with
  | operate kind operation => exact thrives.turn_operate operation suits
  | process task => cases suits
  | respond task input => cases suits
  | fireWatchdog payload => cases suits
  | register definitionKey topic lockTimeout vars contract =>
    exact .rests (s.asks_register definitionKey topic lockTimeout vars contract).engine rfl rfl rfl
  | sweep => exact .rests s.does_sweep.engine rfl rfl rfl
  | dispatch key =>
    cases found : s.registry.lookup key with
    | none =>
      refine .rests ?_ found rfl rfl
      simp only [System.step, System.dispatch, found]
    | some registration =>
      refine .leases ?_ found rfl rfl
      simp only [System.step, System.dispatch, found]
      exact (s.does_leaseNow registration).engine.2
  | setLockTimeout timeout =>
    refine .rests ?_ rfl rfl rfl
    simp only [System.step]
    split <;> rfl
  | answer number kind attempt => exact thrives.turn_answer number kind attempt suits
  | start action => exact thrives.turn_up (fun _ => thrives.registers_handed) (.inl rfl)
  | resume action => exact thrives.turn_up (fun _ => thrives.registers_handed) (.inr rfl)
  | wake action =>
    refine .rests ?_ rfl rfl rfl
    simp only [System.step]
    split <;> rfl
  | commit => exact .rests s.does_commit.engine rfl rfl rfl
  | runJob job =>
    refine .rests ?_ rfl rfl rfl
    simp only [System.step, System.runJob, thrives.engine.jobs, List.find?_nil]
  | _ => exact .rests rfl rfl rfl rfl

end Thrives

theorem Heeds.definitions {kind : AnswerKind} {operation : Operation kind} (heeds : s.Heeds after operation)
    (plain : operation.isPlain = true) : after.engine.definitions = s.engine.definitions := by
  obtain ⟨_, ordinary, _⟩ := s.engine.ordinary_step s.now (s.names.next s.engine) plain
  exact (congrArg Engine.definitions heeds.engine).trans ordinary.definitions

/-- An instance is started of a definition for all of which processors are registered, while the dispatcher is
attached. -/
theorem Turn.starting (turn : s.Turn results move) {start : Beginning} (starts : start ∈ s.beginsIn move) :
    0 < s.listening ∧ (∃ definition, s.engine.definition? start.definitionKey = some definition) ∧
      ∀ activity topic, s.engine.topic? start.definitionKey activity = some topic →
        s.Registers ⟨start.definitionKey, topic⟩ := by
  have other (begins : s.beginsIn move = []) : False := by
    rw [begins] at starts
    cases starts
  cases turn with
  | starts found listening registered _ _ _ begins =>
    rw [begins] at starts
    obtain rfl := List.mem_singleton.mp starts
    exact ⟨listening, ⟨_, found⟩, registered⟩
  | rests _ _ _ begins => exact (other begins).elim
  | leases _ _ _ begins => exact (other begins).elim
  | ends _ _ _ begins => exact (other begins).elim
  | deploys _ _ _ _ _ begins => exact (other begins).elim

/-- No definition is replaced. -/
theorem Turn.definition? (turn : s.Turn results move) {key : String} {definition : ProcessDefinition}
    (found : s.engine.definition? key = some definition) :
    (s.step move).2.engine.definition? key = some definition := by
  have same (definitions : (s.step move).2.engine.definitions = s.engine.definitions) :
      (s.step move).2.engine.definition? key = some definition := by rwa [Engine.definition?, definitions]
  cases turn with
  | rests engine => exact same (congrArg _ engine)
  | @leases registration engine =>
    obtain ⟨change, rewrites⟩ := Engine.rewrites_lease s.engine s.now (s.leaseRequest registration)
    exact same ((congrArg _ engine).trans rewrites.definitions)
  | ends heeds => exact same (heeds.definitions rfl)
  | starts _ _ _ heeds => exact same (heeds.definitions rfl)
  | deploys engine _ new =>
    rw [engine]
    exact Engine.definition?_deploy_new new found

theorem scope_eq (same : after.settings.leasePerDefinition = s.settings.leasePerDefinition)
    (registration : Registration) : after.scope registration = s.scope registration := by
  simp only [scope, leaseRequest, same]

theorem fits_scope {t : System} {other : Registration} (same : t.scope other = s.scope registration) :
    (t.leaseRequest other).fits = (s.leaseRequest registration).fits :=
  LeaseRequest.fits_eq (Prod.mk.inj same).2 (Prod.mk.inj same).1

/-- Among the registrations whose leases are for a task is its own. -/
theorem scope_of_fits {other : Registration} {task : ExternalTask}
    (fits : (s.leaseRequest registration).fits task = true) (key : other.key = ⟨task.definitionKey, task.topic⟩) :
    s.scope other = s.scope registration := by
  obtain ⟨topic, definitionKey⟩ := of_decide_eq_true fits
  have topic : task.topic = registration.key.topic := topic
  simp only [leaseRequest] at definitionKey
  simp only [scope, leaseRequest, key, topic, Prod.mk.injEq, and_true]
  split
  · next perDefinition =>
    rw [if_pos perDefinition, Option.all_some, decide_eq_true_eq] at definitionKey
    rw [definitionKey]
  · rfl

namespace Thrives

variable (thrives : s.Thrives results processed begun)
include thrives

/-- What is registered for the instances that were started, and for the one that is. -/
theorem registered_all (turn : s.Turn results move) {start : Beginning} (among : start ∈ begun ++ s.beginsIn move) :
    (∃ definition, s.engine.definition? start.definitionKey = some definition) ∧ ∀ activity topic,
      s.engine.topic? start.definitionKey activity = some topic → s.Registers ⟨start.definitionKey, topic⟩ := by
  rcases List.mem_append.mp among with old | new
  · obtain ⟨run, atRun, follows⟩ := thrives.engine.follows start old
    exact ⟨follows.definitionKey ▸ thrives.orderly.sound.deployed run atRun, thrives.registered start old⟩
  · exact (turn.starting new).2

/-- What the engine makes of the move. -/
theorem engine_step (suits : s.Suits results move) (accepted : ∀ registration ∈ s.leasesFor? move,
      ∃ expiry, deadline s.now (s.leaseRequest registration).lock = .ok expiry) :
    (s.step move).2.engine.Thrives results s.settings.workerId (s.step move).2.held (processed ++ s.endsIn move)
      (begun ++ s.beginsIn move) := by
  have held := thrives.held_step suits fun _ => thrives.registers_handed
  have sound := thrives.orderly.sound
  have new := thrives.orderly.newTo thrives.apart
  cases thrives.turn suits with
  | rests engine leases ends begins =>
    rw [leasedIn, leases, ends, Option.elim_none, List.append_nil, List.append_nil] at held
    rw [engine, ends, begins, List.append_nil, List.append_nil]
    exact thrives.engine.of_perm held.symm
  | @leases registration engine leases ends begins =>
    obtain ⟨expiry, within⟩ := accepted registration leases
    have engine' : s.engine.Thrives results (s.leaseRequest registration).worker s.held processed begun :=
      thrives.engine
    obtain ⟨tasks, result, lent⟩ := engine'.lease sound thrives.prompt within
    have answered : (s.ask (.lease (s.leaseRequest registration))).1 = .ok tasks := result
    have leased : s.leasedIn move = tasks := by
      rw [leasedIn, leases, Option.elim_some, leaseAsk, answered]
      rfl
    rw [leased, ends, List.append_nil] at held
    rw [engine, ends, begins, List.append_nil, List.append_nil]
    exact lent.of_perm held.symm
  | @ends lease heeds leases ends begins =>
    rw [leasedIn, leases, ends, Option.elim_none, List.append_nil] at held
    rw [heeds.engine, ends, begins, List.append_nil]
    exact ((thrives.engine.of_perm (held.symm.trans (List.perm_append_singleton _ _))).complete sound new).2.1
  | starts found _ _ heeds leases ends begins =>
    rw [leasedIn, leases, ends, Option.elim_none, List.append_nil, List.append_nil] at held
    rw [heeds.engine, ends, begins, List.append_nil]
    exact ((thrives.engine.of_perm held.symm).start sound new found _ _).2.1
  | deploys engine simple unknown leases ends begins =>
    rw [leasedIn, leases, ends, Option.elim_none, List.append_nil, List.append_nil] at held
    rw [engine, ends, begins, List.append_nil, List.append_nil]
    exact (thrives.engine.of_perm held.symm).deploy sound simple unknown

/-- Tasks that are open after a call have processors registered for them when the call is made. -/
theorem registers_after {kind : AnswerKind} {operation : Operation kind} (suits : s.Suits results move)
    (heeds : s.Heeds (s.step move).2 operation) (plain : operation.isPlain = true) {ended : List LeasedTask}
    (engine : (s.step move).2.engine.Thrives results s.settings.workerId (s.step move).2.held ended
      (begun ++ s.beginsIn move)) {record : TaskRecord} (member : record ∈ (s.step move).2.engine.tasks) :
    s.Registers ⟨record.task.definitionKey, record.task.topic⟩ := by
  have orderly := (in_order_run thrives.apart thrives.orderly [move]).2
  obtain ⟨start, among, _, _, follows, own⟩ := engine.begunOf orderly.sound member
  have key : record.task.definitionKey = start.definitionKey := own.definitionKey.trans follows.definitionKey
  have same := Engine.topic?_of_definitions (heeds.definitions plain) record.task.definitionKey record.task.activity
  rw [key]
  refine (thrives.registered_all (thrives.turn suits) among).2 record.task.activity record.task.topic ?_
  rw [← key, ← same, engine.topics record member]

/-- A task that a call opens is announced, and the dispatcher leaves a lease for it to be made. -/
theorem awaited_heeds {kind : AnswerKind} {operation : Operation kind} (suits : s.Suits results move)
    (heeds : s.Heeds (s.step move).2 operation) (plain : operation.isPlain = true) (listening : 0 < s.listening)
    {ended : List LeasedTask} (engine : (s.step move).2.engine.Thrives results s.settings.workerId
      (s.step move).2.held ended (begun ++ s.beginsIn move)) {opened : Option TaskRecord}
    (brings : (s.engine.step s.now (s.names.next s.engine) operation).Brings s.engine opened)
    (registration : Registration) : (s.step move).2.engine.idle (s.leaseRequest registration).fits ≤
      (s.step move).2.leasesToDo (s.alike registration) := by
  obtain ⟨leases, toDo, heard⟩ := heeds.toDo
  let waits (work : Work) : Bool := work.toLease?.any (s.alike registration)
  have covered : (opened.toList.countP fun record => (s.leaseRequest registration).fits record.task) ≤
      (leases.map Work.deferLease).countP waits := by
    cases opens : opened with
    | none => exact Nat.zero_le _
    | some record =>
      rw [Option.toList_some, List.countP_singleton]
      split
      · next fits =>
        obtain ⟨member, absent⟩ := brings.new record opens
        have announced := s.engine.announced_opened s.now (s.names.next s.engine) plain member absent
        rw [← heeds.engine] at member
        obtain ⟨other, found, _⟩ := thrives.registers_after suits heeds plain engine member
        have leased : other ∈ leases :=
          heard listening _ announced other (by rw [engine.topics record member, Option.bind_some, found])
        have alike : s.alike registration other = true :=
          decide_eq_true (scope_of_fits fits (Registry.lookup_key found))
        exact List.countP_pos_iff.mpr ⟨_, List.mem_map_of_mem leased, alike⟩
      · exact Nat.zero_le _
  have more := toDo.countP_eq waits
  rw [List.countP_append] at more
  have idle := brings.idle (s.leaseRequest registration).fits
  have before : _ ≤ s.toDo.countP waits := thrives.awaited registration
  rw [heeds.engine]
  change _ ≤ (s.step move).2.toDo.countP waits
  omega

/-- Each free task stays awaited: by a lease that is left to be made, until one finds it. -/
theorem awaited_step (suits : s.Suits results move) (accepted : ∀ registration ∈ s.leasesFor? move,
      ∃ expiry, deadline s.now (s.leaseRequest registration).lock = .ok expiry) (registration : Registration) :
    (s.step move).2.engine.idle (s.leaseRequest registration).fits ≤
      (s.step move).2.leasesToDo (s.alike registration) := by
  have before := thrives.awaited registration
  have fewer := leasesToDo_step thrives.numbered move (s.alike registration)
  have engine := thrives.engine_step suits accepted
  have sound := thrives.orderly.sound
  have new := thrives.orderly.newTo thrives.apart
  cases thrives.turn suits with
  | rests same leases =>
    rw [leases] at fewer
    rw [same]
    exact before.trans fewer
  | @deploys definition same _ _ leases =>
    rw [leases] at fewer
    rw [same, Engine.idle, (s.engine.deploy_rest definition).2.1]
    exact before.trans fewer
  | @leases other same leases =>
    obtain ⟨expiry, within⟩ := accepted other leases
    have still := s.engine.idle_lease_le s.now (s.leaseRequest other) (s.leaseRequest registration).fits
    rw [leases, Option.toList_some, List.countP_singleton] at fewer
    rw [same]
    split at fewer
    · next alike =>
      -- the lease may be the one that was awaited, for it finds a task if there is any
      have finds := thrives.engine.lends.idle_lease sound thrives.prompt thrives.engine.available within
        (show 0 < unboundedLease by decide)
      rw [fits_scope (of_decide_eq_true alike)] at finds
      omega
    · omega
  | @ends lease heeds leases ends begins =>
    have held := thrives.held_step suits fun _ => thrives.registers_handed
    rw [leasedIn, leases, ends, Option.elim_none, List.append_nil] at held
    have held := held.symm.trans (List.perm_append_singleton _ _)
    obtain ⟨record, member, _⟩ := thrives.engine.lends.backed lease (held.mem_iff.mpr (List.mem_cons_self ..))
    obtain ⟨start, among, _⟩ := thrives.engine.begunOf sound member
    obtain ⟨_, _, opened, brings⟩ := (thrives.engine.of_perm held).complete sound new
    exact thrives.awaited_heeds suits heeds rfl (thrives.attached (List.ne_nil_of_mem among)) engine brings registration
  | starts found listening _ heeds leases ends begins =>
    obtain ⟨_, _, opened, brings⟩ := thrives.engine.start sound new found _ _
    exact thrives.awaited_heeds suits heeds rfl listening engine brings registration

theorem attached_step (suits : s.Suits results move) (some' : begun ++ s.beginsIn move ≠ []) :
    0 < (s.step move).2.listening := by
  refine Nat.lt_of_lt_of_le ?_ (thrives.abides suits).listening
  obtain ⟨start, among⟩ := List.exists_mem_of_ne_nil _ some'
  rcases List.mem_append.mp among with old | new
  · exact thrives.attached (List.ne_nil_of_mem old)
  · exact ((thrives.turn suits).starting new).1

theorem registered_step (suits : s.Suits results move) {start : Beginning} (among : start ∈ begun ++ s.beginsIn move)
    {activity topic : String} (bound : (s.step move).2.engine.topic? start.definitionKey activity = some topic) :
    (s.step move).2.Registers ⟨start.definitionKey, topic⟩ := by
  have turn := thrives.turn suits
  obtain ⟨⟨definition, found⟩, registered⟩ := thrives.registered_all turn among
  rw [Engine.topic?, turn.definition? found, ← found] at bound
  exact (registered activity topic bound).grow thrives.sourced.distinct
    (thrives.sourced.step move fun _ _ _ _ => trivial)

end Thrives

/-- A move of a run in which all goes well: it suits the system, the calendar has room for the lock if it leases, and
no lease runs out before the attempt that it was given for has ended. -/
structure Smooth (s : System) (results : RegistrationKey → TaskContext → Variables) (move : Move) : Prop where
  suits : s.Suits results move
  accepted : ∀ registration ∈ s.leasesFor? move,
    (deadline s.now (registration.effectiveLock s.settings.lockTimeout)).isOk = true
  prompt : ∀ lease ∈ (s.step move).2.held, (s.step move).2.now < lease.lockExpiry

/-- When a move goes well, all goes well after it. -/
theorem Thrives.step (thrives : s.Thrives results processed begun) (smooth : s.Smooth results move) :
    (s.step move).2.Thrives results (processed ++ s.endsIn move) (begun ++ s.beginsIn move) := by
  have worker := (thrives.abides smooth.suits).worker
  have within (registration : Registration) (leases : registration ∈ s.leasesFor? move) :=
    accepts_lease (smooth.accepted registration leases)
  have perDefinition := (thrives.sourced.step move fun _ _ _ _ => trivial).perDefinition
  refine ⟨thrives.toReady.step smooth.suits fun _ => thrives.registers_handed, ?_,
    thrives.attached_step smooth.suits, fun start among _ _ => thrives.registered_step smooth.suits among,
    smooth.prompt, fun registration => ?_⟩
  · rw [worker]
    exact thrives.engine_step smooth.suits within
  · have alike : (s.step move).2.alike registration = s.alike registration := by
      funext other
      simp only [System.alike, scope_eq perDefinition]
    rw [alike, fits_scope (scope_eq perDefinition registration)]
    exact thrives.awaited_step smooth.suits within registration

end TaskLeasing.System
