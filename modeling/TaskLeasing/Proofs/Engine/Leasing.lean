import TaskLeasing.Proofs.Engine.Instances

namespace TaskLeasing

/-- Whether a scope lets the variable of a name through. -/
def VariableScope.Admits : VariableScope → String → Prop
  | .all, _ => True
  | .none, _ => False
  | .names listed, name => name ∈ listed

instance (scope : VariableScope) (name : String) : Decidable (scope.Admits name) :=
  match scope with
  | .all => inferInstanceAs (Decidable True)
  | .none => inferInstanceAs (Decidable False)
  | .names listed => inferInstanceAs (Decidable (name ∈ listed))

/-- What a scope selects are the variables of the names that it admits. -/
theorem VariableScope.get?_select (scope : VariableScope) (vars : Variables) (name : String) :
    (scope.select vars).get? name = if scope.Admits name then vars.get? name else .none := by
  cases scope with
  | all => exact (if_pos trivial).symm
  | none => exact (if_neg id).symm
  | names listed =>
    -- what was chosen earlier on stays, unless it is chosen again
    have further (chosen : Variables) :
        (listed.foldl (fun chosen name => (vars.get? name).elim chosen (chosen.insert name)) chosen).get? name =
          if name ∈ listed then (vars.get? name).or (chosen.get? name) else chosen.get? name := by
      induction listed generalizing chosen with
      | nil => simp
      | cons first rest ih =>
        rw [List.foldl_cons, ih]
        by_cases same : first = name
        · subst same
          cases found : vars.get? first <;> simp [Variables.get?_insert]
        · cases found : vars.get? first <;> simp [Variables.get?_insert, same, Ne.symm same]
    have chosen := further .empty
    rw [Variables.get?_empty, Option.or_none] at chosen
    exact chosen

/-- A task that can be leased on a request: one of its topic and, if it names one, of its definition, which has not
run out of retries and is under no lock that lasts. -/
structure TaskRecord.Fits (record : TaskRecord) (request : LeaseRequest) (now : Instant) : Prop where
  topic : record.task.topic = request.topic
  definition : ∀ key, request.definitionKey = some key → record.task.definitionKey = key
  retries : record.task.retries ≠ some 0
  unlocked : ∀ expiry, record.task.lockExpiry = some expiry → expiry ≤ now

theorem TaskRecord.isLeasable_iff_fits {record : TaskRecord} {request : LeaseRequest} {now : Instant} :
    record.isLeasable request now = true ↔ record.Fits request now := by
  rw [TaskRecord.isLeasable_iff, Option.all_eq_true, Option.all_eq_true]
  simp only [decide_eq_true_eq]
  exact ⟨fun ⟨topic, definition, retries, unlocked⟩ =>
      ⟨topic, fun key named => (definition key named).symm, retries, unlocked⟩,
    fun fits => ⟨fits.topic, fun key named => (fits.definition key named).symm, fits.retries, fits.unlocked⟩⟩

namespace Engine

/-- A batch of open tasks as a request is to be given them: those that were created first of all that fit, one after
the other, as many as it asks for, and all of them if there are no more. -/
structure EarliestFor (e : Engine) (now : Instant) (request : LeaseRequest) (batch : List TaskRecord) : Prop where
  fit : ∀ record ∈ batch, record ∈ e.tasks ∧ record.Fits request now
  distinct : (batch.map fun record => record.task.id).Nodup
  ordered : batch.Pairwise fun a b => a.sequence < b.sequence
  bounded : batch.length ≤ request.maxTasks
  left_out : ∀ record ∈ e.tasks, record.Fits request now → record ∉ batch →
    batch.length = request.maxTasks ∧ ∀ taken ∈ batch, taken.sequence < record.sequence

/-- A lease as it is handed out for a task: a copy of what the record tells of it, under the new lock, with those of
the variables that its instance has at that moment which the request's scope lets through. -/
structure HandsOut (e : Engine) (request : LeaseRequest) (expiry : Instant) (record : TaskRecord)
    (lease : LeasedTask) : Prop where
  copied : lease = record.task.leased expiry lease.vars
  selected : ∃ run, e.instance? record.task.instanceId = some run ∧ lease.vars = request.vars.select run.vars ∧
    ∀ name, lease.vars.get? name = if request.vars.Admits name then run.vars.get? name else none

/-- In the course of moves one task was opened by a move before which another one was open already. -/
def OpenedBefore (moves : List EngineMove) (first second : String) : Prop :=
  ∃ before move after, moves = before ++ move :: after ∧
    (∃ record ∈ (empty.run before).tasks, record.task.id = first) ∧
    (∀ record ∈ (empty.run before).tasks, record.task.id ≠ second) ∧
    ∃ record ∈ (empty.run (before ++ [move])).tasks, record.task.id = second

theorem OpenedBefore.append {moves : List EngineMove} {first second : String}
    (earlier : OpenedBefore moves first second) (more : List EngineMove) :
    OpenedBefore (moves ++ more) first second := by
  obtain ⟨before, move, after, rfl, isOpen, absent, opened⟩ := earlier
  exact ⟨before, move, after ++ more, by simp, isOpen, absent, opened⟩

variable {e : Engine}

/-- A task that is open after a move was so before it, or bears the name that the move brought and the number that
comes next. -/
theorem record_take {move : EngineMove} {record : TaskRecord} (member : record ∈ (e.take move).tasks) :
    (∃ old ∈ e.tasks, old.SameTask record) ∨
      record.sequence = e.sequence + 1 ∧ ∃ names, move.names? = some names ∧ record.task.id = names.task := by
  cases move with
  | endJob job => exact .inl ⟨record, member, .refl record⟩
  | call now fresh operation =>
    have rewritten {after : Engine} (rewrites : ∃ change, e.Rewrites after change) (among : record ∈ after.tasks) :
        ∃ old ∈ e.tasks, old.SameTask record := by
      obtain ⟨change, rewrites⟩ := rewrites
      rw [rewrites.tasks] at among
      obtain ⟨old, atOld, rfl⟩ := List.mem_map.mp among
      exact ⟨old, atOld, rewrites.keeps old⟩
    have ordinary (plain : operation.isPlain = true) : (∃ old ∈ e.tasks, old.SameTask record) ∨
        record.sequence = e.sequence + 1 ∧ ∃ names, some fresh = some names ∧ record.task.id = names.task := by
      obtain ⟨_, ordinary, _⟩ := ordinary_step e now fresh plain
      rcases ordinary.records record member with ⟨kept, _⟩ | ⟨opened, _⟩
      · exact .inl ⟨record, kept, .refl record⟩
      · exact .inr ⟨opened.sequence, fresh, rfl, opened.id⟩
    cases operation with
    | lease request => exact .inl (rewritten (rewrites_lease e now request) member)
    | failure task worker report =>
      exact .inl (rewritten (rewrites_reportFailure e now fresh.incident task worker report) member)
    | deploy definition =>
      have tasks : (e.deploy definition).tasks = e.tasks := (deploy_rest e definition).2.1
      exact .inl ⟨record, tasks ▸ member, .refl record⟩
    | setAvailable available => exact .inl ⟨record, member, .refl record⟩
    | _ => exact ordinary rfl

/-- The numbers of open tasks tell which of them was opened first. -/
theorem openedBefore_of_lt {moves : List EngineMove} (fresh : FreshMoves moves) {a b : TaskRecord}
    (atA : a ∈ (empty.run moves).tasks) (atB : b ∈ (empty.run moves).tasks) (less : a.sequence < b.sequence) :
    OpenedBefore moves a.task.id b.task.id := by
  induction moves using List.reverseRecOn generalizing a b with
  | nil => cases atA
  | append_singleton before move ih =>
    obtain ⟨sound, known⟩ := run_sound fresh.left
    rw [run_append, run_cons, run_nil] at atA atB
    rcases record_take atA with ⟨oldA, atOldA, sameA⟩ | ⟨last, _⟩
    · rcases record_take atB with ⟨oldB, atOldB, sameB⟩ | ⟨_, names, brings, named⟩
      · rw [sameA.sequence, sameB.sequence] at less
        rw [sameA.id, sameB.id]
        exact (ih fresh.left atOldA atOldB less).append [move]
      · have new : names.NewTo (empty.run before) := known.newTo fun given atGiven =>
          fresh.apart atGiven (List.mem_filterMap.mpr ⟨move, List.mem_singleton_self move, brings⟩)
        refine ⟨before, move, [], rfl, ⟨oldA, atOldA, sameA.id.symm⟩, fun record member => ?_, b, ?_, rfl⟩
        · exact named ▸ new.tasks record member
        · rwa [run_append, run_cons, run_nil]
    · -- the task opened last has the greatest number
      rcases record_take atB with ⟨oldB, atOldB, sameB⟩ | ⟨alsoLast, _⟩
      · have counted := sound.counted oldB atOldB
        rw [last, sameB.sequence] at less
        omega
      · omega

/-- What is left out of the front of an ordered list comes after all that is taken, and only if the front is full. -/
theorem left_out_of_take {α : Type} {l : List α} {before : α → α → Prop} (ordered : l.Pairwise before) {n : Nat}
    {a : α} (member : a ∈ l) (out : a ∉ l.take n) : (l.take n).length = n ∧ ∀ b ∈ l.take n, before b a := by
  rw [← List.take_append_drop n l] at ordered member
  have later : a ∈ l.drop n := (List.mem_append.mp member).resolve_left out
  have more : n < l.length := by
    have positive := List.length_pos_of_mem later
    rw [List.length_drop] at positive
    omega
  exact ⟨List.length_take_of_le (Nat.le_of_lt more), fun b among => (List.pairwise_append.mp ordered).2.2 b among a later⟩

/-- A lease takes the tasks that it is to take. -/
theorem Sound.earliest (sound : e.Sound none) (now : Instant) (request : LeaseRequest) :
    e.EarliestFor now request (e.chosenFor now request) := by
  have sublist : (e.chosenFor now request).Sublist e.tasks := (List.take_sublist _ _).trans List.filter_sublist
  refine ⟨fun record chosen => ?_, sound.tasks_distinct.sublist (sublist.map _), sound.ordered.sublist sublist,
    List.length_take_le _ _, fun record member fits out => ?_⟩
  · obtain ⟨member, leasable⟩ := mem_chosenFor chosen
    exact ⟨member, TaskRecord.isLeasable_iff_fits.mp leasable⟩
  · exact left_out_of_take (sound.ordered.filter _)
      (List.mem_filter.mpr ⟨member, TaskRecord.isLeasable_iff_fits.mpr fits⟩) out

theorem Sound.handsOut (sound : e.Sound none) (request : LeaseRequest) (expiry : Instant) {record : TaskRecord}
    (member : record ∈ e.tasks) : e.HandsOut request expiry record (e.handOver request expiry record) := by
  obtain ⟨run, atRun, own⟩ := sound.belongs record member
  have found : e.instance? record.task.instanceId = some run := own.instanceId ▸ sound.instance?_eq atRun
  have vars : (e.handOver request expiry record).vars = request.vars.select run.vars := by
    simp [handOver, ExternalTask.leased, found]
  exact ⟨rfl, run, found, vars, fun name => by rw [vars, VariableScope.get?_select]⟩

/-- Names tell the records of open tasks apart. -/
theorem Sound.id_mem_iff (sound : e.Sound none) {batch : List TaskRecord} (among : ∀ record ∈ batch, record ∈ e.tasks)
    {record : TaskRecord} (member : record ∈ e.tasks) :
    record.task.id ∈ (batch.map fun record => record.task.id) ↔ record ∈ batch := by
  refine ⟨fun named => ?_, List.mem_map_of_mem⟩
  obtain ⟨other, atOther, same⟩ := List.mem_map.mp named
  exact sound.record_unique (among other atOther) member same ▸ atOther

/-- While the engine is available, a lease whose lock ends within the calendar is given the tasks that were created
first of all that fit the request, each with the variables of its instance that are asked for; these tasks pass to the
worker until the lock ends, and nothing else changes. -/
theorem lease_exact {moves : List EngineMove} (fresh : FreshMoves moves) (now : Instant) (names : FreshNames)
    (request : LeaseRequest) {expiry : Instant} (accepted : deadline now request.lock = .ok expiry) :
    let e := empty.run moves
    let reply := e.step now names (.lease request)
    (e.available = false → reply = e.refuse switchedOff) ∧
    (e.available = true → ∃ batch leases, e.EarliestFor now request batch ∧ reply.result = .ok leases ∧
      List.Forall₂ (e.HandsOut request expiry) batch leases ∧ reply.started = [] ∧
      reply.engine = { e with
        tasks := e.tasks.map fun record =>
          if record ∈ batch then
            { record with task := { record.task with worker := some request.worker, lockExpiry := some expiry } }
          else record }) ∧
    ∀ a ∈ e.tasks, ∀ b ∈ e.tasks, a.sequence < b.sequence → OpenedBefore moves a.task.id b.task.id := by
  intro e reply
  obtain ⟨sound, _⟩ := run_sound fresh
  refine ⟨fun unavailable => ?_, fun available => ?_, fun a atA b atB less => openedBefore_of_lt fresh atA atB less⟩
  · change e.lease now request = e.refuse switchedOff
    simp [lease, unavailable]
  · have answered : reply = _ := lease_eq available accepted
    have among (record : TaskRecord) (chosen : record ∈ e.chosenFor now request) : record ∈ e.tasks :=
      (mem_chosenFor chosen).1
    refine ⟨e.chosenFor now request, _, sound.earliest now request, by rw [answered]; rfl, ?_, by rw [answered]; rfl, ?_⟩
    · rw [List.forall₂_map_right_iff, List.forall₂_same]
      exact fun record chosen => sound.handsOut request expiry (among record chosen)
    · rw [answered]
      refine congrArg (fun tasks => { e with tasks }) (List.map_congr_left fun record member => ?_)
      simp only [sound.id_mem_iff among member]
      rfl

/-- Of four orders that wait for their payment the first is under a lock of one minute, the second is out of retries,
the third is under a lock of one second, and the fourth was never leased. -/
def fourPayments : List EngineMove :=
  [.call .epoch ⟨"a", "a", "a", "a", "a"⟩ (.deploy ⟨"order", [⟨"pay", .serviceTask, some "money", none⟩]⟩),
    .call .epoch ⟨"b", "b", "b", "b", "b"⟩ (.start "order" none .empty),
    .call .epoch ⟨"c", "c", "c", "c", "c"⟩ (.start "order" none .empty),
    .call .epoch ⟨"d", "d", "d", "d", "d"⟩ (.start "order" none (.ofFields [("iban", .text "DE"), ("sum", .text "9")])),
    .call .epoch ⟨"f", "f", "f", "f", "f"⟩ (.start "order" none .empty),
    .call .epoch ⟨"g", "g", "g", "g", "g"⟩ (.lease ⟨1, "v", "money", .ofSeconds 60, .none, none⟩),
    .call .epoch ⟨"h", "h", "h", "h", "h"⟩ (.lease ⟨2, "v", "money", .ofSeconds 1, .none, none⟩),
    .call .epoch ⟨"i", "i", "i", "i", "i"⟩ (.failure "c" "v" (.terminal "gone" ""))]

/-- Ten seconds on, a request for one task takes the third. -/
theorem lease_exact_third :
    let e := empty.run fourPayments
    let now : Instant := ⟨10000000000, false, by decide, by decide⟩
    let expiry : Instant := ⟨70000000000, false, by decide, by decide⟩
    let request : LeaseRequest := ⟨1, "w", "money", .ofSeconds 60, .names ["sum", "tax"], some "order"⟩
    let third : LeasedTask :=
      ⟨"d", "order", "money", "d", none, "pay", "d", expiry, .ofFields [("sum", .text "9")], none⟩
    let reply := e.step now ⟨"j", "j", "j", "j", "j"⟩ (.lease request)
    reply.result = .ok [third] ∧ ∃ batch leases, e.EarliestFor now request batch ∧ reply.result = .ok leases ∧
      List.Forall₂ (e.HandsOut request expiry) batch leases ∧ reply.started = [] ∧
      reply.engine = { e with
        tasks := e.tasks.map fun record =>
          if record ∈ batch then
            { record with task := { record.task with worker := some request.worker, lockExpiry := some expiry } }
          else record } := by
  have fresh : FreshMoves fourPayments := by decide
  refine ⟨rfl, (lease_exact fresh _ _ _ ?accepted).2.1 ?available⟩
  case accepted => rfl
  case available => rfl

end Engine

end TaskLeasing
