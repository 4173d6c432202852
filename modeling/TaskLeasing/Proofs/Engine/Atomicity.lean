import TaskLeasing.Proofs.Engine.Endings

namespace TaskLeasing

/-- The task that a call is to complete, and the worker. -/
def Operation.completes? {kind : AnswerKind} : Operation kind → Option (String × String)
  | .complete task worker _ => some (task, worker)
  | _ => none

namespace Engine

variable {e : Engine}

/-- A completion meets the refusal that was asked for: nothing else stands against it, and all it does is use
the refusal up. -/
structure MeetsRefusal (e after : Engine) (task worker : String) (reason : EngineError) : Prop where
  available : e.available = true
  owned : ∃ record, e.ownedRecord task worker = .ok record
  injected : task ∈ e.refusals
  reason : reason = .unavailable ("completion of " ++ task ++ " rejected")
  after : after = { e with refusals := e.refusals.filter (· ≠ task) }

theorem ownedRecord_error {task worker : String} {reason : EngineError}
    (barred : e.ownedRecord task worker = .error reason) :
    reason = .taskNotFound task ∨ reason = .notOwner task worker := by
  unfold ownedRecord at barred
  cases found : e.record? task with
  | none =>
    rw [found] at barred
    exact .inl (Except.error.inj barred).symm
  | some record =>
    simp only [found] at barred
    split at barred
    · cases barred
    · exact .inr (Except.error.inj barred).symm

/-- An instance of a deployed definition can go on from anywhere. -/
theorem advance_ok_of_deployed {id : String} (known : ∃ run ∈ e.instances, run.id = id)
    (deployed : ∀ run ∈ e.instances, ∃ definition, e.definition? run.definitionKey = some definition)
    (place : Nat) (fresh : String) : (e.advance id place fresh).result = .ok () := by
  obtain ⟨run, atRun, idEq⟩ := known
  have found : (e.instance? id).isSome := List.find?_isSome.mpr ⟨run, atRun, by simpa using idEq⟩
  obtain ⟨first, isFirst⟩ := Option.isSome_iff_exists.mp found
  obtain ⟨definition, atKey⟩ := deployed first (List.mem_of_find?_eq_some isFirst)
  simp only [advance, running, isFirst, atKey]

/-- An instance is begun for a deployed definition alone, so that its first steps succeed. -/
theorem Sound.start_refused (sound : e.Sound none) {fresh : FreshNames} {key : String}
    {businessKey : Option String} {vars : Variables} {reason : EngineError}
    (refused : (e.start fresh key businessKey vars).result = .error reason) :
    e.start fresh key businessKey vars = e.refuse reason := by
  unfold Engine.start at refused ⊢
  refine guarded_refused (fun refused => ?_) refused
  cases found : e.definition? key with
  | none =>
    simp only [found, Option.isNone_none, if_true] at refused ⊢
    cases refused
    rfl
  | some definition =>
    let begun : ProcessInstance :=
      ⟨fresh.instanceId, key, businessKey, fresh.execution, vars, none, .active, [], []⟩
    have deployed : ∀ run ∈ (e.addInstance begun).instances,
        ∃ definition, (e.addInstance begun).definition? run.definitionKey = some definition := by
      intro run member
      rcases List.mem_append.mp member with old | new
      · exact sound.deployed run old
      · rw [List.mem_singleton.mp new]
        exact ⟨definition, found⟩
    have goesOn := advance_ok_of_deployed ⟨begun, List.mem_append_right _ (List.mem_singleton_self _), rfl⟩
      deployed 0 fresh.task
    simp only [found, Option.isNone_some, Bool.false_eq_true, if_false] at refused
    rw [goesOn] at refused
    cases refused

theorem Sound.complete_refused (sound : e.Sound none) {fresh task worker : String} {vars : Variables}
    {reason : EngineError} (refused : (e.complete fresh task worker vars).result = .error reason) :
    e.complete fresh task worker vars = e.refuse reason ∧
        (reason = switchedOff ∨ e.ownedRecord task worker = .error reason) ∨
      (e.complete fresh task worker vars).started = [] ∧
        e.MeetsRefusal (e.complete fresh task worker vars).engine task worker reason := by
  by_cases available : e.available = true
  · cases owned : e.ownedRecord task worker with
    | error barred =>
      left
      simp only [Engine.complete, available, not_true_eq_false, if_false, owned] at refused ⊢
      cases refused
      exact ⟨rfl, .inr rfl⟩
    | ok record =>
      by_cases injected : task ∈ e.refusals
      · right
        simp only [Engine.complete, available, not_true_eq_false, if_false, owned, injected, if_true] at refused ⊢
        exact ⟨rfl, available, ⟨record, owned⟩, injected, (Except.error.inj refused).symm, rfl⟩
      · rw [sound.complete_ok available owned injected fresh vars] at refused
        cases refused
  · left
    simp only [Engine.complete, available, Bool.false_eq_true, not_false_eq_true, if_true] at refused ⊢
    cases refused
    exact ⟨rfl, .inl rfl⟩

theorem Sound.businessError_refused (sound : e.Sound none) {fresh task worker code : String}
    {vars : Option Variables} {reason : EngineError}
    (refused : (e.raiseBusinessError fresh task worker code vars).result = .error reason) :
    e.raiseBusinessError fresh task worker code vars = e.refuse reason ∧
      (reason = switchedOff ∨ e.ownedRecord task worker = .error reason) := by
  by_cases available : e.available = true
  · cases owned : e.ownedRecord task worker with
    | error barred =>
      simp only [Engine.raiseBusinessError, available, not_true_eq_false, if_false, owned] at refused ⊢
      cases refused
      exact ⟨rfl, .inr rfl⟩
    | ok record =>
      rw [sound.raiseBusinessError_ok available owned fresh code vars] at refused
      cases refused
  · simp only [Engine.raiseBusinessError, available, Bool.false_eq_true, not_false_eq_true, if_true] at refused ⊢
    cases refused
    exact ⟨rfl, .inl rfl⟩

theorem setVariables_refused_at_once {execution : String} {vars : Variables} {reason : EngineError}
    (refused : (e.setVariables execution vars).result = .error reason) :
    e.setVariables execution vars = e.refuse reason := by
  unfold setVariables at refused ⊢
  refine guarded_refused (fun refused => ?_) refused
  cases found : e.instances.find? fun run => run.execution = execution with
  | none =>
    simp only [found] at refused
    cases refused
    rfl
  | some run =>
    simp only [found] at refused
    cases refused

/-- A refused call changes nothing, but for a completion that meets its refusal. -/
theorem Sound.step_refused (sound : e.Sound none) {now : Instant} {fresh : FreshNames} {kind : AnswerKind}
    {operation : Operation kind} {reason : EngineError}
    (refused : (e.step now fresh operation).result = .error reason) :
    e.step now fresh operation = e.refuse reason ∨
      ∃ task worker, operation.completes? = some (task, worker) ∧ (e.step now fresh operation).started = [] ∧
        e.MeetsRefusal (e.step now fresh operation).engine task worker reason := by
  cases operation with
  | start key businessKey vars => exact .inl (sound.start_refused refused)
  | lease request => exact .inl (lease_refused_at_once refused)
  | complete task worker vars =>
    rcases sound.complete_refused refused with ⟨unchanged, _⟩ | ⟨silent, met⟩
    · exact .inl unchanged
    · exact .inr ⟨task, worker, rfl, silent, met⟩
  | businessError task worker code message vars => exact .inl (sound.businessError_refused refused).1
  | failure task worker report => exact .inl (reportFailure_refused_at_once refused)
  | findTask task => exact .inl (guarded_refused nofun refused)
  | setVariables execution vars => exact .inl (setVariables_refused_at_once refused)
  | scheduleJob due payload => exact .inl (guarded_refused nofun refused)
  | _ => cases refused

/-- What stands against the end of a task is found before the task's record is removed: that the task's instance
or its definition were unknown is not among it. -/
theorem Sound.ending_refused (sound : e.Sound none) {now : Instant} {fresh : FreshNames} {kind : AnswerKind}
    {operation : Operation kind} {reason : EngineError} {task : String} {ending : TaskEnd}
    (asked : operation.ending? task = some ending)
    (refused : (e.step now fresh operation).result = .error reason) :
    (∀ text, reason ≠ .internal text) ∧ ∀ key, reason ≠ .definitionNotFound key := by
  have barred {worker : String} (cause : reason = switchedOff ∨ e.ownedRecord task worker = .error reason) :
      (∀ text, reason ≠ .internal text) ∧ ∀ key, reason ≠ .definitionNotFound key := by
    rcases cause with rfl | barred
    · exact ⟨fun _ => nofun, fun _ => nofun⟩
    · rcases ownedRecord_error barred with rfl | rfl <;> exact ⟨fun _ => nofun, fun _ => nofun⟩
  cases operation with
  | complete id worker vars =>
    obtain ⟨rfl, _⟩ := Option.ite_none_right_eq_some.mp asked
    rcases sound.complete_refused refused with ⟨_, cause⟩ | ⟨_, met⟩
    · exact barred cause
    · rw [met.reason]
      exact ⟨fun _ => nofun, fun _ => nofun⟩
  | businessError id worker code message vars =>
    obtain ⟨rfl, _⟩ := Option.ite_none_right_eq_some.mp asked
    exact barred (sound.businessError_refused refused).2
  | _ => cases asked

/-- Calls of an engine are atomic: whatever a reachable engine refuses leaves it as it was, and starts nothing. The
one thing that a refused call can use up is the refusal that a completion meets. -/
theorem Reachable.refused_step (reachable : e.Reachable) (now : Instant) (fresh : FreshNames) {kind : AnswerKind}
    (operation : Operation kind) {reason : EngineError}
    (refused : (e.step now fresh operation).result = .error reason) :
    (e.step now fresh operation).started = [] ∧
      ((e.step now fresh operation).engine = e ∨
        ∃ task worker, operation.completes? = some (task, worker) ∧
          e.MeetsRefusal (e.step now fresh operation).engine task worker reason) ∧
      ∀ task ending, operation.ending? task = some ending →
        (∀ text, reason ≠ .internal text) ∧ ∀ key, reason ≠ .definitionNotFound key := by
  obtain ⟨moves, names, rfl⟩ := reachable
  have sound := (run_sound names).1
  have late (task : String) (ending : TaskEnd) (asked : operation.ending? task = some ending) :
      (∀ text, reason ≠ .internal text) ∧ ∀ key, reason ≠ .definitionNotFound key :=
    sound.ending_refused asked refused
  rcases sound.step_refused refused with unchanged | ⟨task, worker, completes, silent, met⟩
  · rw [unchanged]
    exact ⟨rfl, .inl rfl, late⟩
  · exact ⟨silent, .inr ⟨task, worker, completes, met⟩, late⟩

/-- A completion that was to be refused once leaves task, instance and completions alone; it could be asked for
again. -/
theorem refused_step_completion :
    let pay : Activity := ⟨"pay", .serviceTask, some "money", none⟩
    let moves : List EngineMove :=
      [.call .epoch ⟨"a", "a", "a", "a", "a"⟩ (.deploy ⟨"order", [pay]⟩),
        .call .epoch ⟨"b", "b", "b", "b", "b"⟩ (.start "order" none .empty),
        .call .epoch ⟨"c", "c", "c", "c", "c"⟩ (.lease ⟨1, "w", "money", .zero, .all, none⟩),
        .call .epoch ⟨"d", "d", "d", "d", "d"⟩ (.refuseNextCompletion "b")]
    let e := empty.run moves
    let reply := e.step .epoch ⟨"f", "f", "f", "f", "f"⟩ (.complete "b" "w" .empty)
    let reason : EngineError := .unavailable "completion of b rejected"
    FreshMoves moves ∧ reply.result = .error reason ∧ e.refusals = ["b"] ∧ reply.engine.refusals = [] ∧
      reply.started = [] ∧
        (reply.engine = e ∨ ∃ task worker, (Operation.complete "b" "w" .empty).completes? = some (task, worker) ∧
          e.MeetsRefusal reply.engine task worker reason) := by
  intro pay moves e reply reason
  have names : FreshMoves moves := by decide
  have refused : reply.result = .error reason := rfl
  have atomic := Reachable.refused_step ⟨moves, names, rfl⟩ .epoch ⟨"f", "f", "f", "f", "f"⟩
    (.complete "b" "w" .empty) refused
  exact ⟨names, refused, rfl, rfl, atomic.1, atomic.2.1⟩

end Engine

end TaskLeasing
