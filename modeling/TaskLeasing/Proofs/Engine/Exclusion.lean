import TaskLeasing.Proofs.Engine.Deadlines
import TaskLeasing.Proofs.Engine.Instances

namespace TaskLeasing

/-- The report of a failure of a task that the engine accepts, if the move is one, and the end of the
lock that the report sets. -/
def Engine.failureOf? (e : Engine) (task : String) : EngineMove → Option (FailureReport × Option Instant)
  | .call now fresh (.failure id worker report) =>
    match (e.step now fresh (.failure id worker report)).result with
    | .ok _ =>
      if id = task then
        some (report, ((e.take (.call now fresh (.failure id worker report))).record? task).bind
          fun record => record.task.lockExpiry)
      else none
    | .error _ => none
  | _ => none

theorem Engine.failureOf?_refused {e : Engine} {task id worker : String} {now : Instant} {fresh : FreshNames}
    {report : FailureReport} {reason : EngineError}
    (refused : (e.reportFailure now fresh.incident id worker report).result = .error reason) :
    e.failureOf? task (.call now fresh (.failure id worker report)) = none := by
  simp only [failureOf?, step, refused]

theorem Engine.failureOf?_accepted {e : Engine} {task id worker : String} {now : Instant} {fresh : FreshNames}
    {report : FailureReport}
    (accepted : (e.reportFailure now fresh.incident id worker report).result = .ok ()) :
    e.failureOf? task (.call now fresh (.failure id worker report)) =
      if id = task then
        some (report, ((e.reportFailure now fresh.incident id worker report).engine.record? task).bind
          fun record => record.task.lockExpiry)
      else none := by
  simp only [failureOf?, step, accepted, take]

/-- The accepted reports of failures of a task in the course of moves, in order. -/
def Engine.failuresOf (e : Engine) (task : String) : List EngineMove → List (FailureReport × Option Instant)
  | [] => []
  | move :: rest => (e.failureOf? task move).toList ++ (e.take move).failuresOf task rest

theorem Engine.failuresOf_append (e : Engine) (task : String) (before after : List EngineMove) :
    e.failuresOf task (before ++ after) =
      e.failuresOf task before ++ (e.run before).failuresOf task after := by
  induction before generalizing e with
  | nil => rfl
  | cons move rest ih => simp only [List.cons_append, failuresOf, ih, List.append_assoc, run_cons]

/-- A task is held until a time, at least, and then to be tried as often as its last failure left. -/
def Engine.Holds (e : Engine) (task : String) (bound : Instant) (left : Option UInt32) : Prop :=
  ∀ record ∈ e.tasks, record.task.id = task →
    (∃ expiry, record.task.lockExpiry = some expiry ∧ bound ≤ expiry) ∧
      (left.isSome → record.task.retries = left)

namespace Engine.Holds

variable {e : Engine} {task : String} {bound : Instant} {left : Option UInt32}

/-- A request finds a task that is held only once the time has come, and with retries left. -/
theorem leasable (holds : e.Holds task bound left) {record : TaskRecord} (member : record ∈ e.tasks)
    (idEq : record.task.id = task) {request : LeaseRequest} {now : Instant}
    (fits : record.isLeasable request now = true) : bound ≤ now ∧ left ≠ some 0 := by
  obtain ⟨⟨expiry, locked, held⟩, counted⟩ := holds record member idEq
  simp only [TaskRecord.isLeasable, locked, Option.all_some, decide_eq_true_eq] at fits
  obtain ⟨_, _, retries, past⟩ := fits
  refine ⟨Instant.le_trans held past, fun none' => retries ?_⟩
  rw [counted (by simp [none']), none']

theorem lease (holds : e.Holds task bound left) (whole : bound.Whole) (now : Instant)
    (request : LeaseRequest) : (e.lease now request).engine.Holds task bound left := by
  cases result : (e.lease now request).result with
  | error reason =>
    rw [lease_refused result]
    exact holds
  | ok tasks =>
    obtain ⟨expiry, available, accepted, _⟩ := lease_ok result
    rw [lease_eq available accepted]
    intro record member idEq
    obtain ⟨old, atOld, rfl⟩ := List.mem_map.mp member
    by_cases chosen : old.task.id ∈ (e.chosenFor now request).map fun r => r.task.id
    · simp only [chosen, if_true] at idEq ⊢
      obtain ⟨other, atOther, same⟩ := List.mem_map.mp chosen
      obtain ⟨old', fits⟩ := mem_chosenFor atOther
      have past := (holds.leasable old' (same.trans idEq) fits).1
      exact ⟨⟨expiry, rfl, le_deadline whole past accepted⟩, (holds old atOld idEq).2⟩
    · simp only [chosen, if_false] at idEq ⊢
      exact holds old atOld idEq

/-- Plain calls write nothing into a task. -/
theorem plain (holds : e.Holds task bound left) (now : Instant) {fresh : FreshNames} {kind : AnswerKind}
    {operation : Operation kind} (plain : operation.isPlain = true) (new : fresh.task ≠ task) :
    (e.step now fresh operation).engine.Holds task bound left := by
  obtain ⟨_, ordinary, _⟩ := ordinary_step e now fresh plain
  intro record member idEq
  rcases ordinary.records record member with ⟨old, _⟩ | ⟨opened, _⟩
  · exact holds record old idEq
  · exact absurd (opened.id.symm.trans idEq) new

/-- A report that is refused, or is one of another task, writes nothing into a task either. -/
theorem otherFailure (holds : e.Holds task bound left) (now : Instant) (fresh id worker : String)
    (report : FailureReport)
    (other : (e.reportFailure now fresh id worker report).result = .ok () → id ≠ task) :
    (e.reportFailure now fresh id worker report).engine.Holds task bound left := by
  cases result : (e.reportFailure now fresh id worker report).result with
  | error reason =>
    rw [reportFailure_refused result]
    exact holds
  | ok _ =>
    obtain ⟨expiry, record, available, accepted, owned⟩ := reportFailure_ok result
    have tasks : (e.reportFailure now fresh id worker report).engine.tasks =
        (e.modifyRecord id fun r => r.fail report expiry).tasks := by
      rw [reportFailure_eq available accepted owned]
      split <;> rfl
    intro r member idEq
    rw [tasks] at member
    obtain ⟨old, atOld, rfl⟩ := List.mem_map.mp member
    by_cases same : old.task.id = id
    · simp only [same, if_true] at idEq
      exact absurd (same.symm.trans idEq) (other result)
    · simp only [same, if_false] at idEq ⊢
      exact holds old atOld idEq

end Engine.Holds

/-- The task of an accepted report is held for the reported delay, and keeps the reported retries. -/
theorem Engine.holds_failed {e : Engine} {now expiry : Instant} {task worker : String}
    {report : FailureReport} {record : TaskRecord} (fresh : String) (available : e.available = true)
    (accepted : deadline now report.delay = .ok expiry) (owned : e.ownedRecord task worker = .ok record) :
    (e.reportFailure now fresh task worker report).engine.Holds task expiry (some report.retries) ∧
      ((e.reportFailure now fresh task worker report).engine.record? task).bind
        (fun record => record.task.lockExpiry) = some expiry := by
  have tasks : (e.reportFailure now fresh task worker report).engine.tasks =
      (e.modifyRecord task fun r => r.fail report expiry).tasks := by
    rw [reportFailure_eq available accepted owned]
    split <;> rfl
  have failed {r : TaskRecord} (member : r ∈ (e.reportFailure now fresh task worker report).engine.tasks)
      (idEq : r.task.id = task) : r.task.lockExpiry = some expiry ∧ r.task.retries = some report.retries := by
    rw [tasks] at member
    obtain ⟨old, atOld, rfl⟩ := List.mem_map.mp member
    by_cases same : old.task.id = task
    · simp only [same, if_true]
      exact ⟨rfl, rfl⟩
    · simp only [same, if_false] at idEq
  refine ⟨fun r member idEq => ?_, ?_⟩
  · obtain ⟨locked, retries⟩ := failed member idEq
    exact ⟨⟨expiry, locked, Instant.le_refl _⟩, fun _ => retries⟩
  · obtain ⟨atOld, idOld, _⟩ := ownedRecord_ok owned
    have present : ((e.reportFailure now fresh task worker report).engine.record? task).isSome := by
      refine List.find?_isSome.mpr ⟨record.fail report expiry, ?_, decide_eq_true idOld⟩
      rw [tasks]
      exact List.mem_map.mpr ⟨record, atOld, if_pos idOld⟩
    obtain ⟨found, isFound⟩ := Option.isSome_iff_exists.mp present
    have idFound : found.task.id = task := by simpa using List.find?_some isFound
    rw [isFound]
    exact (failed (List.mem_of_find?_eq_some isFound) idFound).1

/-- How a task is held after accepted reports of its failures: as the last of them says, or else until
the time that was set before. -/
def Engine.HeldAfter (e : Engine) (task : String) (bound : Instant)
    (failures : List (FailureReport × Option Instant)) : Prop :=
  match failures.getLast? with
  | none => e.Holds task bound none
  | some (report, lock) =>
    ∃ expiry, lock = some expiry ∧ expiry.Whole ∧ e.Holds task expiry (some report.retries)

namespace Engine

variable {e : Engine} {task : String} {bound : Instant}

/-- One move: either it is an accepted report of a failure of the task, or the task is held as before. -/
theorem Holds.take {left : Option UInt32} (holds : e.Holds task bound left) (whole : bound.Whole)
    {move : EngineMove} (new : ∀ names, move.names? = some names → names.task ≠ task) :
    match e.failureOf? task move with
    | none => (e.take move).Holds task bound left
    | some (report, lock) =>
      ∃ expiry, lock = some expiry ∧ expiry.Whole ∧ (e.take move).Holds task expiry (some report.retries) := by
  cases move with
  | endJob job => exact holds
  | call now fresh operation =>
    cases operation with
    | lease request => exact holds.lease whole now request
    | failure id worker report =>
      cases result : (e.reportFailure now fresh.incident id worker report).result with
      | error reason =>
        rw [failureOf?_refused result]
        exact holds.otherFailure now fresh.incident id worker report fun accepted => by simp [result] at accepted
      | ok _ =>
        rw [failureOf?_accepted result]
        by_cases own : id = task
        · obtain ⟨expiry, record, available, accepted, owned⟩ := reportFailure_ok result
          subst own
          obtain ⟨held, lock⟩ := holds_failed fresh.incident available accepted owned
          rw [if_pos rfl]
          exact ⟨expiry, lock, deadline_whole accepted, held⟩
        · rw [if_neg own]
          exact holds.otherFailure now fresh.incident id worker report fun _ => own
    | deploy definition =>
      have tasks : (e.deploy definition).tasks = e.tasks := (deploy_rest e definition).2.1
      exact fun record member => holds record (tasks ▸ member)
    | setAvailable available => exact holds
    | _ => exact holds.plain now rfl (new fresh rfl)

theorem HeldAfter.take {failures : List (FailureReport × Option Instant)} (whole : bound.Whole)
    (held : e.HeldAfter task bound failures) {move : EngineMove}
    (new : ∀ names, move.names? = some names → names.task ≠ task) :
    (e.take move).HeldAfter task bound (failures ++ (e.failureOf? task move).toList) := by
  have step (until' : Instant) (left : Option UInt32) (whole' : until'.Whole)
      (holds : e.Holds task until' left) := holds.take whole' new
  unfold HeldAfter at held ⊢
  cases moved : e.failureOf? task move with
  | some failure =>
    simp only [moved] at step
    rw [Option.toList_some, List.getLast?_concat]
    cases last : failures.getLast? with
    | none => exact step bound none whole (by simpa only [last] using held)
    | some earlier =>
      simp only [last] at held
      obtain ⟨expiry, _, whole', holds⟩ := held
      exact step expiry _ whole' holds
  | none =>
    simp only [moved] at step
    rw [Option.toList_none, List.append_nil]
    cases last : failures.getLast? with
    | none => exact step bound none whole (by simpa only [last] using held)
    | some earlier =>
      simp only [last] at held
      obtain ⟨expiry, lock, whole', holds⟩ := held
      exact ⟨expiry, lock, whole', step expiry _ whole' holds⟩

/-- Moves that do not open the task anew leave it held as its last failure among them says. -/
theorem heldAfter_run (whole : bound.Whole) (holds : e.Holds task bound none) {moves : List EngineMove}
    (new : ∀ names ∈ namesOf moves, names.task ≠ task) :
    (e.run moves).HeldAfter task bound (e.failuresOf task moves) := by
  induction moves using List.reverseRecOn with
  | nil => exact holds
  | append_singleton before move ih =>
    rw [namesOf_append] at new
    rw [failuresOf_append, run_append, run_cons, run_nil]
    have before' := ih fun names member => new names (List.mem_append_left _ member)
    have new' : ∀ names, move.names? = some names → names.task ≠ task := fun names brings =>
      new names (List.mem_append_right _ (List.mem_filterMap.mpr ⟨move, List.mem_singleton_self move, brings⟩))
    have further := before'.take whole new'
    simpa only [failuresOf, List.append_nil] using further

/-- A task that was just leased is held until the end of the lock it was handed out with. -/
theorem holds_leased {now : Instant} {request : LeaseRequest} {tasks : List LeasedTask}
    (answered : (e.lease now request).result = .ok tasks) {leased : LeasedTask} (member : leased ∈ tasks) :
    (e.lease now request).engine.Holds leased.id leased.lockExpiry none ∧ leased.lockExpiry.Whole ∧
      ∃ record ∈ e.tasks, record.task.id = leased.id ∧ record.isLeasable request now = true := by
  obtain ⟨expiry, available, accepted, rfl⟩ := lease_ok answered
  obtain ⟨record, chosen, rfl⟩ := List.mem_map.mp member
  obtain ⟨atRecord, fits⟩ := mem_chosenFor chosen
  refine ⟨?_, deadline_whole accepted, record, atRecord, rfl, fits⟩
  rw [lease_eq available accepted]
  intro r atR idEq
  obtain ⟨old, _, rfl⟩ := List.mem_map.mp atR
  have idOld : old.task.id = record.task.id := by
    by_cases among : old.task.id ∈ (e.chosenFor now request).map fun r => r.task.id
    · simp only [among, if_true] at idEq
      exact idEq
    · simp only [among, if_false] at idEq
      exact idEq
  have among : old.task.id ∈ (e.chosenFor now request).map fun r => r.task.id :=
    List.mem_map.mpr ⟨record, chosen, idOld.symm⟩
  simp only [among, if_true]
  exact ⟨⟨expiry, rfl, Instant.le_refl _⟩, by simp⟩

/-- Whether a task whose lock ends at a bound is free at a later time, after moves. If failures of it were
accepted among them, the last one counts: its lock must be over, and it must have left retries. -/
def Frees (e : Engine) (task : String) (bound : Instant) (moves : List EngineMove) (later : Instant) : Prop :=
  match (e.failuresOf task moves).getLast? with
  | none => bound ≤ later
  | some (report, lock) => report.retries ≠ 0 ∧ ∃ expiry, lock = some expiry ∧ expiry ≤ later

/-- A task that was leased is not leased again, by whomever and on whatever request, before its lock is over;
or, if failures of it were accepted in between, before the lock that the last of them set is over, and not
at all if that one left no retries. -/
theorem lease_exclusive {before between : List EngineMove} {now later : Instant} {fresh again : FreshNames}
    {request next : LeaseRequest} {tasks others : List LeasedTask} {first second : LeasedTask}
    (names : FreshMoves (before ++ .call now fresh (.lease request) :: between))
    (leased : ((empty.run before).step now fresh (.lease request)).result = .ok tasks)
    (releasedTo : ((empty.run (before ++ .call now fresh (.lease request) :: between)).step later again
      (.lease next)).result = .ok others)
    (atFirst : first ∈ tasks) (atSecond : second ∈ others) (same : second.id = first.id) :
    ((empty.run before).take (.call now fresh (.lease request))).Frees first.id first.lockExpiry between
      later := by
  obtain ⟨held, whole, record, atRecord, idEq, _⟩ := holds_leased leased atFirst
  -- the task was open before the first lease, so no name brought since is its own
  obtain ⟨given, atGiven, named⟩ := (run_sound names.left).2.tasks record atRecord
  have new : ∀ brought ∈ namesOf between, brought.task ≠ first.id := by
    intro brought atBrought same'
    have apart := names.apart atGiven (List.mem_cons_of_mem fresh atBrought)
    exact apart.task (named.symm.trans (idEq.trans same'.symm))
  have kept := heldAfter_run whole held new
  rw [run_append, run_cons] at releasedTo
  obtain ⟨_, _, record', atRecord', idEq', fits⟩ := holds_leased releasedTo atSecond
  unfold HeldAfter at kept
  change ((empty.run before).lease now request).engine.Frees first.id first.lockExpiry between later
  unfold Frees
  cases last : (((empty.run before).lease now request).engine.failuresOf first.id between).getLast? with
  | none =>
    simp only [last] at kept ⊢
    exact (kept.leasable atRecord' (idEq'.trans same) fits).1
  | some failure =>
    obtain ⟨report, lock⟩ := failure
    simp only [last] at kept ⊢
    obtain ⟨expiry, locked, _, holds⟩ := kept
    obtain ⟨past, left⟩ := holds.leasable atRecord' (idEq'.trans same) fits
    exact ⟨fun none' => left (congrArg some none'), expiry, locked, past⟩

/-- A task that failed under its first lease is leased again once the wait after the failure is over, long
before the lock would have ended. -/
theorem lease_exclusive_failed :
    let pay : Activity := ⟨"pay", .serviceTask, some "money", none⟩
    let before : List EngineMove :=
      [.call .epoch ⟨"a", "a", "a", "a", "a"⟩ (.deploy ⟨"order", [pay]⟩),
        .call .epoch ⟨"b", "b", "b", "b", "b"⟩ (.start "order" none .empty)]
    let request : LeaseRequest := ⟨1, "w", "money", .ofSeconds 60, .all, none⟩
    let report : FailureReport := ⟨"gone", "", 2, .ofSeconds 5⟩
    let between : List EngineMove := [.call .epoch ⟨"d", "d", "d", "d", "d"⟩ (.failure "b" "w" report)]
    let names : FreshNames := ⟨"c", "c", "c", "c", "c"⟩
    let wait : Instant := ⟨5000000000, false, by decide, by decide⟩
    let first : LeasedTask :=
      ⟨"b", "order", "money", "b", none, "pay", "b", ⟨60000000000, false, by decide, by decide⟩, .empty, none⟩
    let second : LeasedTask :=
      ⟨"b", "order", "money", "b", none, "pay", "b", ⟨65000000000, false, by decide, by decide⟩, .empty, some 2⟩
    ((empty.run before).step .epoch names (.lease request)).result = .ok [first] ∧
      ((empty.run (before ++ .call .epoch names (.lease request) :: between)).step wait names
        (.lease request)).result = .ok [second] ∧
      ((empty.run before).take (.call .epoch names (.lease request))).Frees first.id first.lockExpiry between
        wait := by
  refine ⟨?leased, ?again, lease_exclusive ?fresh ?leased ?again (List.mem_singleton_self _)
    (List.mem_singleton_self _) rfl⟩
  case leased => rfl
  case again => rfl
  case fresh => decide

end Engine

end TaskLeasing
