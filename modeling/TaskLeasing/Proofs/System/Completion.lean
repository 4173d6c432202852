import TaskLeasing.Proofs.System.Thriving

namespace TaskLeasing.System

/-- Moves that go well one after the other. -/
def Smoothly (results : RegistrationKey → TaskContext → Variables) : System → List Move → Prop
  | _, [] => True
  | s, move :: rest => s.Smooth results move ∧ Smoothly results (s.step move).2 rest

/-- The leased tasks whose attempts end in the course of moves, in order. -/
def endsOf : System → List Move → List LeasedTask
  | _, [] => []
  | s, move :: rest => s.endsIn move ++ (s.step move).2.endsOf rest

/-- The instances that are started in the course of moves, in order. -/
def beginsOf : System → List Move → List Beginning
  | _, [] => []
  | s, move :: rest => s.beginsIn move ++ (s.step move).2.beginsOf rest

variable {s : System} {results : RegistrationKey → TaskContext → Variables} {processed : List LeasedTask}
  {begun : List Beginning}

theorem thrives_create (names : Naming) (now : Instant) (settings : Settings) (gated : Bool)
    (results : RegistrationKey → TaskContext → Variables) (distinct : names.Distinct) :
    (create names now settings gated).Thrives results [] [] where
  apart := distinct
  orderly := Engine.orderly_empty names
  hosted := ⟨List.nodup_nil, by simp [create], by simp [create], List.nodup_nil, by simp [calling, create]⟩
  sourced := sourced_create names now settings gated
  kept := .inl rfl
  synchronous := by simp [create]
  plain := by cases gated <;> simp [create, toDo, deferred, awaiting, Host.idle]
  engine := by
    have held : (create names now settings gated).held = [] := by cases gated <;> rfl
    rw [held]
    exact Engine.thrives_empty results _
  attached some' := absurd rfl some'
  registered := by simp
  prompt := by
    have held : (create names now settings gated).held = [] := by cases gated <;> rfl
    simp [held]
  awaited _ := Nat.zero_le _

/-- While moves go well, all goes well. -/
theorem Thrives.run (thrives : s.Thrives results processed begun) {moves : List Move}
    (smoothly : s.Smoothly results moves) :
    (s.run moves).Thrives results (processed ++ s.endsOf moves) (begun ++ s.beginsOf moves) := by
  induction moves generalizing s processed begun with
  | nil =>
    rw [endsOf, beginsOf, List.append_nil, List.append_nil]
    exact thrives
  | cons move rest ih =>
    simp only [endsOf, beginsOf, ← List.append_assoc]
    exact ih (thrives.step smoothly.1) smoothly.2

/-- Processors are at the leased tasks that they were called for, until they answer. -/
theorem Thrives.attempted_run (thrives : s.Thrives results processed begun) {moves : List Move}
    (smoothly : s.Smoothly results moves) : ((s.run moves).attempted ++ s.endsOf moves).Perm
      (s.attempted ++ (s.callsOf moves).filterMap fun call => call.subject.attempt?) := by
  induction moves generalizing s processed begun with
  | nil => exact .refl _
  | cons move rest ih =>
    have first : (((s.step move).2.attempted ++ s.endsIn move : List LeasedTask) : Multiset LeasedTask) = _ :=
      Multiset.coe_eq_coe.mpr (attempted_step thrives.numbered thrives.distinct move)
    have later := Multiset.coe_eq_coe.mpr (ih (thrives.step smoothly.1) smoothly.2)
    simp only [← Multiset.coe_add] at first later
    refine Multiset.coe_eq_coe.mp ?_
    simp only [endsOf, callsOf, List.filterMap_append, filterMap_attempt?, ← Multiset.coe_add]
    change (((s.step move).2.run rest).attempted + (s.endsIn move + _) : Multiset LeasedTask) = _
    rw [add_left_comm, later, ← add_assoc, add_comm (s.endsIn move : Multiset LeasedTask), first, add_assoc]

/-- When the host has no action left, nothing is left to be done. -/
theorem toDo_nil (works : s.host.works = []) (released : s.gate.getD [] = []) :
    s.toDo = [] ∧ s.host.running = [] := by
  simp only [Host.works, List.append_eq_nil_iff, List.map_eq_nil_iff] at works
  obtain ⟨⟨⟨⟨queued, waiting⟩, granted⟩, running⟩, delayed⟩ := works
  have none' := s.coe_toDo
  rw [released, queued, waiting, granted, delayed] at none'
  exact ⟨Multiset.coe_eq_zero _ |>.mp none', running⟩

theorem Thrives.calls_nil (thrives : s.Thrives results processed begun) (running : s.host.running = []) :
    s.calls = [] := by
  refine List.eq_nil_iff_forall_not_mem.mpr fun call member => ?_
  obtain ⟨_, _, _, joined⟩ := thrives.synchronous call member
  obtain ⟨action, own⟩ := Option.isSome_iff_exists.mp joined
  have runs := thrives.hosted.runs action (List.mem_filterMap.mpr ⟨call, member, own⟩)
  rw [running] at runs
  cases runs

/-- When nothing is left to be done, no task is open: a lease would await it if it were free, and an attempt would go
on if it were not. -/
theorem Thrives.tasks_nil (thrives : s.Thrives results processed begun) (toDo : s.toDo = []) (calls : s.calls = []) :
    s.engine.tasks = [] := by
  refine List.eq_nil_iff_forall_not_mem.mpr fun record member => ?_
  have held : s.held = [] := by
    rw [System.held, handed_eq, toDo, attempted, calls]
    rfl
  have free : record.task.lockExpiry = none := by
    rcases thrives.engine.lends.others record member with free | ⟨lease, among, _⟩
    · exact free
    · rw [held] at among
      cases among
  obtain ⟨registration, found, _⟩ := thrives.registers member
  have key := Registry.lookup_key found
  have fits : (s.leaseRequest registration).fits record.task = true := by
    refine decide_eq_true ⟨by simp [leaseRequest, key], ?_⟩
    simp only [leaseRequest, key]
    split <;> simp
  have idle : 0 < s.engine.idle (s.leaseRequest registration).fits :=
    List.countP_pos_iff.mpr ⟨record, member, by simp [TaskRecord.isFree, free, fits]⟩
  have awaited := thrives.awaited registration
  rw [leasesToDo, toDo] at awaited
  exact Nat.lt_irrefl 0 (Nat.lt_of_lt_of_le idle awaited)

/-- All instances come to their end. Let definitions be deployed once each, with activities of different names, and
instances be started while synchronous processors that always succeed are registered for all their external
activities, in a run where the dispatcher is attached, keeps its name and is held by someone, alone calls the engine
besides, and may be swept and called to lease, whatever its host takes up when; the calendar has room for all locks,
and none runs out on an attempt. Then, whenever the host has no action left, no task is open, there are no incidents
and no calls of processors, and every instance that was started is completed. Its history are the activities of its
definition in order; its external activities were each processed once, in this order, by the one call of a processor
that was made for each; and its variables are those that it was started with, under what the processors returned. -/
theorem run_completes (names : Naming) (now : Instant) (settings : Settings) (gated : Bool) (distinct : names.Distinct)
    (results : RegistrationKey → TaskContext → Variables) (moves : List Move) :
    let s := create names now settings gated
    let u := s.run moves
    s.Smoothly results moves → u.host.works = [] → u.gate.getD [] = [] →
      u.engine.tasks = [] ∧ u.engine.incidents = [] ∧ u.calls = [] ∧
      u.engine.instances.map ProcessInstance.id = (s.beginsOf moves).map Beginning.instanceId ∧
      ((s.callsOf moves).filterMap fun call => call.subject.attempt?).Perm (s.endsOf moves) ∧
      ∀ start ∈ s.beginsOf moves, ∃ run ∈ u.engine.instances, ∃ definition,
        run.id = start.instanceId ∧ u.engine.definition? start.definitionKey = some definition ∧
        run.state = .completed ∧ run.history = definition.activities.map Activity.id ∧
        ((ofInstance start.instanceId (s.endsOf moves)).map fun lease => (lease.activity, lease.topic)) =
          externals definition.activities ∧
        run.vars = resultsOver results start.definitionKey start.vars
          (ofInstance start.instanceId (s.endsOf moves)) := by
  intro s u smoothly works released
  have created := thrives_create names now settings gated results distinct
  have thrives := created.run smoothly
  have account := created.attempted_run smoothly
  rw [List.nil_append, List.nil_append] at thrives
  obtain ⟨toDo, running⟩ := toDo_nil works released
  have calls := thrives.calls_nil running
  have tasks := thrives.tasks_nil toDo calls
  refine ⟨tasks, thrives.engine.incidents, calls, thrives.engine.began, ?_, fun start among =>
    thrives.engine.ended thrives.orderly.sound tasks among⟩
  rw [attempted, calls] at account
  exact account.symm

/-- An order is picked and then paid, by a processor that leaves a receipt. A sweep has the dispatcher look twice. -/
def paidOrder : List Move :=
  [.attach, .register "order" "money" none .all .sync,
    .operate .done (.deploy ⟨"order", [⟨"pick", .manualTask, none, none⟩, ⟨"pay", .serviceTask, some "money", none⟩]⟩),
    .operate .name (.start "order" none .empty), .sweep, .start 0, .start 1, .start 2, .start 3, .start 4, .start 5,
    .answer 1 .process (.returned (Variables.empty.insert "receipt" (.bool true)))]

/-- The one instance ends with the receipt. -/
theorem run_completes_paid :
    let s := create unaryNames .epoch (Settings.defaults "w") false
    let u := s.run paidOrder
    u.host.works = [] ∧ u.engine.tasks = [] ∧ (s.endsOf paidOrder).map LeasedTask.activity = ["pay"] ∧
      ∃ run ∈ u.engine.instances, run.state = .completed ∧ run.history = ["pick", "pay"] ∧
        run.vars = Variables.empty.insert "receipt" (.bool true) := by
  have smoothly : (create unaryNames .epoch (Settings.defaults "w") false).Smoothly
      (fun _ _ => Variables.empty.insert "receipt" (.bool true)) paidOrder := by
    refine ⟨⟨trivial, ?_, ?_⟩, ⟨trivial, ?_, ?_⟩, ⟨⟨by decide, rfl⟩, ?_, ?_⟩, ⟨⟨by decide, ?_⟩, ?_, ?_⟩,
      ⟨trivial, ?_, ?_⟩, ⟨trivial, ?_, ?_⟩, ⟨trivial, ?_, ?_⟩, ⟨trivial, ?_, ?_⟩, ⟨trivial, ?_, ?_⟩, ⟨trivial, ?_, ?_⟩,
      ⟨trivial, ?_, ?_⟩, ⟨fun _ _ _ _ _ => rfl, ?_, ?_⟩, trivial⟩ <;> decide +kernel
  have works : ((create unaryNames .epoch (Settings.defaults "w") false).run paidOrder).host.works = [] := rfl
  have begins : (create unaryNames .epoch (Settings.defaults "w") false).beginsOf paidOrder =
      [⟨"i", "order", .empty⟩] := rfl
  have ends : ((create unaryNames .epoch (Settings.defaults "w") false).endsOf paidOrder).map LeasedTask.activity =
      ["pay"] := rfl
  obtain ⟨tasks, _, _, _, _, ended⟩ := run_completes unaryNames .epoch (Settings.defaults "w") false unaryNames_distinct
    (fun _ _ => Variables.empty.insert "receipt" (.bool true)) paidOrder smoothly works rfl
  obtain ⟨run, member, definition, _, found, state, history, _, vars⟩ := ended ⟨"i", "order", .empty⟩
    (begins ▸ List.mem_singleton_self _)
  obtain rfl := Option.some.inj found
  exact ⟨works, tasks, ends, run, member, state, history, vars⟩

end TaskLeasing.System
