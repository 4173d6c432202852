import TaskLeasing.Proofs.Engine.Instances

namespace TaskLeasing

/-- How a task ends: it is completed with variables, or delivers a business error. -/
inductive TaskEnd
  | completed (vars : Variables)
  | erred (code : String)

def TaskEnd.vars? : TaskEnd → Option Variables
  | .completed vars => some vars
  | .erred _ => none

/-- The end that a call asks for, if it is an end of the task. -/
def Operation.ending? (task : String) {kind : AnswerKind} : Operation kind → Option TaskEnd
  | .complete id _ vars => if id = task then some (.completed vars) else none
  | .businessError id _ code _ _ => if id = task then some (.erred code) else none
  | _ => none

/-- The task that a worker tells of in a call, and the worker. -/
def Operation.toldBy? {kind : AnswerKind} : Operation kind → Option (String × String)
  | .complete task worker _ => some (task, worker)
  | .businessError task worker .. => some (task, worker)
  | .failure task worker _ => some (task, worker)
  | _ => none

/-- A call asks for the end of one task at most. -/
theorem Operation.ending?_other {kind : AnswerKind} {operation : Operation kind} {task other : String}
    {ending : TaskEnd} (asked : operation.ending? other = some ending) (apart : other ≠ task) :
    operation.ending? task = none := by
  cases operation with
  | complete id worker vars =>
    simp only [ending?, Option.ite_none_right_eq_some] at asked
    exact if_neg (asked.1 ▸ apart)
  | businessError id worker code message vars =>
    simp only [ending?, Option.ite_none_right_eq_some] at asked
    exact if_neg (asked.1 ▸ apart)
  | _ => rfl

namespace Engine

/-- What can be seen of moves, in order, where each shows at most one thing. -/
def trace {α : Type} (see : Engine → EngineMove → Option α) (e : Engine) : List EngineMove → List α
  | [] => []
  | move :: rest => (see e move).toList ++ (e.take move).trace see rest

theorem trace_append {α : Type} (see : Engine → EngineMove → Option α) (e : Engine)
    (before after : List EngineMove) :
    e.trace see (before ++ after) = e.trace see before ++ (e.run before).trace see after := by
  induction before generalizing e with
  | nil => rfl
  | cons move rest ih => simp only [List.cons_append, trace, ih, List.append_assoc, run_cons]

theorem trace_concat {α : Type} (see : Engine → EngineMove → Option α) (e : Engine)
    (before : List EngineMove) (move : EngineMove) :
    e.trace see (before ++ [move]) = e.trace see before ++ (see (e.run before) move).toList := by
  rw [trace_append, trace, trace, List.append_nil]

/-- The end of a task that a move brings about: one that is asked for and accepted. -/
def endingOf? (task : String) (e : Engine) : EngineMove → Option TaskEnd
  | .call now fresh operation =>
    if (e.step now fresh operation).result.isOk then operation.ending? task else none
  | .endJob _ => none

/-- The worker that a move leases a task to. -/
def lesseeOf? (task : String) (e : Engine) : EngineMove → Option String
  | .call now _ (.lease request) => match (e.lease now request).result with
    | .ok tasks => if task ∈ tasks.map LeasedTask.id then some request.worker else none
    | .error _ => none
  | _ => none

variable {e : Engine}

theorem endingOf?_accepted {task : String} {now : Instant} {fresh : FreshNames} {kind : AnswerKind}
    {operation : Operation kind} (accepted : (e.step now fresh operation).result.isOk = true) :
    endingOf? task e (.call now fresh operation) = operation.ending? task := if_pos accepted

theorem endingOf?_refused {task : String} {now : Instant} {fresh : FreshNames} {kind : AnswerKind}
    {operation : Operation kind} (refused : (e.step now fresh operation).result.isOk = false) :
    endingOf? task e (.call now fresh operation) = none := if_neg (by simp [refused])

theorem endingOf?_unasked {task : String} {kind : AnswerKind} {operation : Operation kind}
    (unasked : operation.ending? task = none) (e : Engine) (now : Instant) (fresh : FreshNames) :
    endingOf? task e (.call now fresh operation) = none := by
  simp only [endingOf?, unasked, ite_self]

theorem lesseeOf?_answered {task : String} {now : Instant} {fresh : FreshNames} {request : LeaseRequest}
    {tasks : List LeasedTask} (answered : (e.lease now request).result = .ok tasks) :
    lesseeOf? task e (.call now fresh (.lease request)) =
      if task ∈ tasks.map LeasedTask.id then some request.worker else none := by
  simp only [lesseeOf?, answered]

theorem lesseeOf?_refused {task : String} {now : Instant} {fresh : FreshNames} {request : LeaseRequest}
    {reason : EngineError} (refused : (e.lease now request).result = .error reason) :
    lesseeOf? task e (.call now fresh (.lease request)) = none := by
  simp only [lesseeOf?, refused]

theorem ownedRecord_gone {task : String} (gone : ∀ record ∈ e.tasks, record.task.id ≠ task) (worker : String) :
    e.ownedRecord task worker = .error (.taskNotFound task) := by
  have absent : e.record? task = none := List.find?_eq_none.mpr fun record member => by
    simpa using gone record member
  simp only [ownedRecord, absent]

/-- Whoever is not let at a task is refused in all that it tells of the task. -/
theorem told_refused {task worker : String} {reason : EngineError}
    (barred : e.ownedRecord task worker = .error reason) (now : Instant) (fresh : FreshNames) {kind : AnswerKind}
    {operation : Operation kind} (told : operation.toldBy? = some (task, worker)) :
    (∃ reason, (e.step now fresh operation).result = .error reason) ∧
      (e.step now fresh operation).engine = e := by
  cases operation with
  | complete id reporter vars =>
    cases told
    simp only [step, complete, barred]
    split <;> exact ⟨⟨_, rfl⟩, rfl⟩
  | businessError id reporter code message vars =>
    cases told
    simp only [step, raiseBusinessError, barred]
    split <;> exact ⟨⟨_, rfl⟩, rfl⟩
  | failure id reporter report =>
    cases told
    simp only [step, reportFailure, barred]
    split
    · exact ⟨⟨_, rfl⟩, rfl⟩
    · split <;> exact ⟨⟨_, rfl⟩, rfl⟩
  | _ => cases told

/-- What the engine keeps beside instances and tasks: incidents, and the variables of completions. -/
structure SameLedger (e after : Engine) : Prop where
  incidents : after.incidents = e.incidents
  completions : after.completions = e.completions

theorem SameLedger.refl (e : Engine) : e.SameLedger e := ⟨rfl, rfl⟩

theorem sameLedger_advance (e : Engine) (id : String) (place : Nat) (fresh : String) :
    e.SameLedger (e.advance id place fresh).engine := by
  unfold advance
  cases e.running id with
  | error reason => exact .refl e
  | ok pair =>
    simp only [walk_engine]
    cases waitsIn? (pair.2.activities.drop place) <;> exact ⟨rfl, rfl⟩

/-- What an accepted end of a task does: the task was open in the hands of the worker, and is open no longer;
its incidents are resolved, and a completion is kept. -/
structure Closes (e after : Engine) (task worker : String) (ending : TaskEnd) : Prop where
  owned : ∃ record, e.ownedRecord task worker = .ok record
  gone : ∀ record ∈ after.tasks, record.task.id ≠ task
  others : ∀ record ∈ e.tasks, record.task.id ≠ task → record ∈ after.tasks
  incidents : after.incidents = (e.resolveIncidents task).incidents
  completions : after.completions =
    ending.vars?.elim e.completions fun vars => (e.recordCompletion task vars).completions

/-- A task that is not open before an instance goes on is not open afterwards, unless it is the task to come. -/
theorem gone_advance {task id fresh : String} (other : fresh ≠ task)
    (gone : ∀ record ∈ e.tasks, record.task.id ≠ task) (place : Nat) :
    ∀ record ∈ (e.advance id place fresh).engine.tasks, record.task.id ≠ task := by
  intro record member
  rcases (ordinary_advance e id place ⟨fresh, fresh, fresh, fresh, fresh⟩).records record member with old | opened
  · exact gone record old.1
  · rw [opened.1.id]
    exact other

theorem mem_advance (e : Engine) (id : String) (place : Nat) (fresh : String) {record : TaskRecord}
    (member : record ∈ e.tasks) : record ∈ (e.advance id place fresh).engine.tasks := by
  unfold advance
  cases e.running id with
  | error reason => exact member
  | ok pair =>
    simp only [walk_engine]
    cases waitsIn? (pair.2.activities.drop place) with
    | none => exact member
    | some target => exact List.mem_append_left _ member

theorem gone_removeTask (e : Engine) (task : String) :
    ∀ record ∈ (e.removeTask task).tasks, record.task.id ≠ task := fun _ member => by
  simpa using (List.mem_filter.mp member).2

theorem mem_removeTask {task : String} {record : TaskRecord} (member : record ∈ e.tasks)
    (other : record.task.id ≠ task) : record ∈ (e.removeTask task).tasks :=
  List.mem_filter.mpr ⟨member, by simpa using other⟩

end Engine

/-- A call that asks for the end of a task closes it, or is refused and leaves tasks and ledger alone. -/
def Reply.Decides {α : Type} (reply : Reply α) (e : Engine) (task worker : String) (ending : TaskEnd) : Prop :=
  reply.result.isOk = true ∧ e.Closes reply.engine task worker ending ∨
    reply.result.isOk = false ∧ reply.engine.tasks = e.tasks ∧ e.SameLedger reply.engine

namespace Engine

variable {e : Engine}

theorem Sound.complete_decides (sound : e.Sound none) {fresh : String}
    (new : ∀ record ∈ e.tasks, record.task.id ≠ fresh) (task worker : String) (vars : Variables) :
    (e.complete fresh task worker vars).Decides e task worker (.completed vars) := by
  by_cases available : e.available = true
  · cases owned : e.ownedRecord task worker with
    | error reason =>
      right
      simp only [Engine.complete, available, not_true_eq_false, if_false, owned, refuse]
      exact ⟨rfl, trivial, .refl e⟩
    | ok record =>
      by_cases refused : task ∈ e.refusals
      · right
        simp only [Engine.complete, available, not_true_eq_false, if_false, owned, refused, if_true, refuse]
        exact ⟨rfl, rfl, ⟨rfl, rfl⟩⟩
      · left
        obtain ⟨definition, _, stepped⟩ := sound.complete_eq available owned refused fresh vars
        refine ⟨by rw [sound.complete_ok available owned refused fresh vars]; rfl, ?_⟩
        rw [stepped]
        obtain ⟨member, rfl, _⟩ := ownedRecord_ok owned
        have gone : ∀ other ∈ (e.completing record vars).tasks, other.task.id ≠ record.task.id :=
          gone_removeTask e record.task.id
        have kept := sameLedger_advance (e.completing record vars) record.task.instanceId
          (definition.after record.task.activity) fresh
        exact ⟨⟨record, owned⟩, gone_advance (new record member).symm gone _,
          fun other atOther apart => mem_advance _ _ _ _ (mem_removeTask atOther apart), kept.incidents,
          kept.completions⟩
  · right
    simp only [Engine.complete, available, Bool.false_eq_true, not_false_eq_true, if_true, refuse]
    exact ⟨rfl, trivial, .refl e⟩

theorem Sound.businessError_decides (sound : e.Sound none) {fresh : String}
    (new : ∀ record ∈ e.tasks, record.task.id ≠ fresh) (task worker code : String) (vars : Option Variables) :
    (e.raiseBusinessError fresh task worker code vars).Decides e task worker (.erred code) := by
  by_cases available : e.available = true
  · cases owned : e.ownedRecord task worker with
    | error reason =>
      right
      simp only [Engine.raiseBusinessError, available, not_true_eq_false, if_false, owned, refuse]
      exact ⟨rfl, trivial, .refl e⟩
    | ok record =>
      left
      obtain ⟨definition, _, stepped⟩ := sound.raiseBusinessError_eq available owned fresh code vars
      refine ⟨by rw [sound.raiseBusinessError_ok available owned fresh code vars]; rfl, ?_⟩
      rw [stepped]
      obtain ⟨member, rfl, _⟩ := ownedRecord_ok owned
      have gone : ∀ other ∈ (e.erring record code vars).tasks, other.task.id ≠ record.task.id :=
        gone_removeTask e record.task.id
      cases definition.boundary? record.task.activity with
      | none => exact ⟨⟨record, owned⟩, gone, fun other => mem_removeTask, rfl, rfl⟩
      | some place =>
        have kept := sameLedger_advance (e.erring record code vars) record.task.instanceId place fresh
        exact ⟨⟨record, owned⟩, gone_advance (new record member).symm gone place,
          fun other atOther apart => mem_advance _ _ _ _ (mem_removeTask atOther apart), kept.incidents,
          kept.completions⟩
  · right
    simp only [Engine.raiseBusinessError, available, Bool.false_eq_true, not_false_eq_true, if_true, refuse]
    exact ⟨rfl, trivial, .refl e⟩

/-- Whoever asks for the end of a task tells of the task, and the call decides on it. -/
theorem Sound.decides (sound : e.Sound none) (now : Instant) {fresh : FreshNames} (new : fresh.NewTo e)
    {kind : AnswerKind} {operation : Operation kind} {task : String} {ending : TaskEnd}
    (asked : operation.ending? task = some ending) :
    ∃ worker, operation.toldBy? = some (task, worker) ∧
      (e.step now fresh operation).Decides e task worker ending := by
  cases operation with
  | complete id worker vars =>
    simp only [Operation.ending?, Option.ite_none_right_eq_some, Option.some.injEq] at asked
    obtain ⟨rfl, rfl⟩ := asked
    exact ⟨worker, rfl, sound.complete_decides new.tasks id worker vars⟩
  | businessError id worker code message vars =>
    simp only [Operation.ending?, Option.ite_none_right_eq_some, Option.some.injEq] at asked
    obtain ⟨rfl, rfl⟩ := asked
    exact ⟨worker, rfl, sound.businessError_decides new.tasks id worker code vars⟩
  | _ => cases asked

/-- Calls that tell of no task leave the ledger alone. -/
theorem sameLedger_step (e : Engine) (now : Instant) (fresh : FreshNames) {kind : AnswerKind}
    {operation : Operation kind} (untold : operation.toldBy? = none) :
    e.SameLedger (e.step now fresh operation).engine := by
  cases operation with
  | deploy definition =>
    change e.SameLedger (e.deploy definition)
    unfold deploy
    split <;> exact ⟨rfl, rfl⟩
  | start key businessKey vars =>
    change e.SameLedger (e.start fresh key businessKey vars).engine
    unfold start
    split
    · exact .refl e
    · split
      · exact .refl e
      · have further := sameLedger_advance (e.addInstance ⟨fresh.instanceId, key, businessKey, fresh.execution,
          vars, none, .active, [], []⟩) fresh.instanceId 0 fresh.task
        exact ⟨further.incidents, further.completions⟩
  | lease request =>
    change e.SameLedger (e.lease now request).engine
    cases result : (e.lease now request).result with
    | error reason =>
      rw [lease_refused result]
      exact .refl e
    | ok tasks =>
      obtain ⟨expiry, available, accepted, _⟩ := lease_ok result
      rw [lease_eq available accepted]
      exact ⟨rfl, rfl⟩
  | findTask task =>
    change e.SameLedger (e.findTask task).engine
    unfold findTask
    split <;> exact .refl e
  | setVariables execution vars =>
    change e.SameLedger (e.setVariables execution vars).engine
    unfold setVariables
    split
    · exact .refl e
    · split <;> exact ⟨rfl, rfl⟩
  | scheduleJob due payload =>
    change e.SameLedger (e.scheduleJob fresh.job due payload).engine
    unfold scheduleJob
    split <;> exact ⟨rfl, rfl⟩
  | refuseNextCompletion task =>
    change e.SameLedger (e.refuseNextCompletion task)
    unfold refuseNextCompletion
    split <;> exact ⟨rfl, rfl⟩
  | setAvailable available => exact ⟨rfl, rfl⟩
  | _ => cases untold

/-- A report of a failure leaves the completions alone. -/
theorem reportFailure_completions (e : Engine) (now : Instant) (fresh task worker : String)
    (report : FailureReport) :
    (e.reportFailure now fresh task worker report).engine.completions = e.completions := by
  cases result : (e.reportFailure now fresh task worker report).result with
  | error reason => rw [reportFailure_refused result]
  | ok _ =>
    obtain ⟨expiry, record, available, accepted, owned⟩ := reportFailure_ok result
    rw [reportFailure_eq available accepted owned]
    split <;> rfl

end Engine

end TaskLeasing
