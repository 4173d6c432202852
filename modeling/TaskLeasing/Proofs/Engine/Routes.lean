import TaskLeasing.Proofs.Engine.Endings
import TaskLeasing.Proofs.Engine.Progress
import TaskLeasing.Proofs.Route

namespace TaskLeasing

/-- The activities that an instance has entered. -/
def Engine.historyOf (e : Engine) (id : String) : List String :=
  ((e.instance? id).map ProcessInstance.history).getD []

/-- The activities that a move announces. -/
def Engine.startedBy (e : Engine) : EngineMove → List ActivityStarted
  | .call now fresh operation => (e.step now fresh operation).started
  | .endJob _ => []

/-- The business error that a move delivers, if it is a report of one that the engine accepts, with the instance. -/
def Engine.delivery? (e : Engine) : EngineMove → Option (String × Delivery)
  | .call now fresh (.businessError task worker code message vars) =>
    match (e.step now fresh (.businessError task worker code message vars)).result, e.record? task with
    | .ok _, some record =>
      some (record.task.instanceId, ⟨(e.historyOf record.task.instanceId).length, record.task.activity, code⟩)
    | _, _ => none
  | _ => none

/-- An error, if it is delivered to an instance. -/
def deliveredTo (id : String) (error : Option (String × Delivery)) : Option Delivery :=
  error.bind fun error => if error.1 = id then some error.2 else none

/-- The business errors that moves deliver to an instance, in order. -/
def Engine.deliveriesTo (e : Engine) (id : String) (moves : List EngineMove) : List Delivery :=
  e.trace (fun e move => deliveredTo id (e.delivery? move)) moves

/-- What an instance that goes on with activities has announced. -/
def ProcessInstance.announces (run : ProcessInstance) (activities : List Activity) : List ActivityStarted :=
  (enteredOf activities).map fun activity => ⟨run.definitionKey, activity.id, run.id⟩

namespace Engine

/-- What a move makes of the instances, with what it announces and the business error that it delivers: at most one of
them goes on or ends, and the others stay where they are. -/
inductive Walks (e after : Engine) : List ActivityStarted → Option (String × Delivery) → Prop
  | stays (change : ProcessInstance → ProcessInstance) (keeps : ∀ run : ProcessInstance, run.SameCourse (change run))
      (errors : ∀ run : ProcessInstance, (change run).businessErrors = run.businessErrors)
      (instances : after.instances = e.instances.map change) : Walks e after [] none
  | begins {run : ProcessInstance} {definition : ProcessDefinition} (new : ∀ old ∈ e.instances, old.id ≠ run.id)
      (found : e.definition? run.definitionKey = some definition) (active : run.state = .active)
      (history : run.history = []) (errors : run.businessErrors = [])
      (instances : after.instances = e.instances ++ [run.goOn definition.activities]) :
      Walks e after (run.announces definition.activities) none
  | completes {record : TaskRecord} {run : ProcessInstance} {definition : ProcessDefinition} (vars : Variables)
      (member : record ∈ e.tasks) (atRun : run ∈ e.instances) (own : record.task.BelongsTo run)
      (found : e.definition? run.definitionKey = some definition)
      (instances : after.instances = e.instances.map fun r =>
        if r.id = run.id then ({ run with vars := vars } : ProcessInstance).goOn
          (definition.activities.drop (definition.after record.task.activity)) else r) :
      Walks e after (run.announces (definition.activities.drop (definition.after record.task.activity))) none
  | diverts {record : TaskRecord} {run : ProcessInstance} {definition : ProcessDefinition} (vars : Variables)
      {code : String} {place : Nat} (member : record ∈ e.tasks) (atRun : run ∈ e.instances)
      (own : record.task.BelongsTo run) (found : e.definition? run.definitionKey = some definition)
      (boundary : definition.boundary? record.task.activity = some place)
      (instances : after.instances = e.instances.map fun r => if r.id = run.id then
        ({ run with vars := vars, businessErrors := run.businessErrors ++ [code] } : ProcessInstance).goOn
          (definition.activities.drop place) else r) :
      Walks e after (run.announces (definition.activities.drop place))
        (some (run.id, ⟨run.history.length, record.task.activity, code⟩))
  | fails {record : TaskRecord} {run : ProcessInstance} {definition : ProcessDefinition} (vars : Variables)
      {code : String} (member : record ∈ e.tasks) (atRun : run ∈ e.instances) (own : record.task.BelongsTo run)
      (found : e.definition? run.definitionKey = some definition)
      (boundary : definition.boundary? record.task.activity = none)
      (instances : after.instances = e.instances.map fun r => if r.id = run.id then
        { run with vars := vars, businessErrors := run.businessErrors ++ [code], currentActivity := none,
                   state := .endedByError code } else r) :
      Walks e after [] (some (run.id, ⟨run.history.length, record.task.activity, code⟩))

variable {e : Engine}

theorem Walks.of_eq {after : Engine} (instances : after.instances = e.instances) : e.Walks after [] none :=
  .stays id (fun _ => ⟨rfl, rfl, rfl, rfl, rfl, rfl, rfl⟩) (fun _ => rfl) (by rw [instances, List.map_id])

theorem started_advance {run : ProcessInstance} {definition : ProcessDefinition}
    (running : e.running run.id = .ok (run, definition)) (place : Nat) (fresh : String) :
    (e.advance run.id place fresh).started = run.announces (definition.activities.drop place) := by
  have key : definition.key = run.definitionKey := definition?_key (running_ok running).2
  unfold advance
  simp only [running, walk_started, key]
  rfl

/-- An instance of an engine with no two of one id, after changes of it alone. -/
theorem Sound.map_own (sound : e.Sound none) {run : ProcessInstance} (atRun : run ∈ e.instances)
    (change : ProcessInstance → ProcessInstance) :
    (e.instances.map fun r => if r.id = run.id then change r else r) =
      e.instances.map fun r => if r.id = run.id then change run else r := by
  refine List.map_congr_left fun r atR => ?_
  split
  · rw [sound.instance_unique atR atRun (by assumption)]
  · rfl

theorem Sound.walks_start (sound : e.Sound none) {fresh : FreshNames} (new : fresh.NewTo e) (key : String)
    (businessKey : Option String) (vars : Variables) :
    e.Walks (e.start fresh key businessKey vars).engine (e.start fresh key businessKey vars).started none := by
  unfold Engine.start
  split
  · exact .of_eq rfl
  · cases found : e.definition? key with
    | none => exact .of_eq rfl
    | some definition =>
      let run := newInstance fresh key businessKey vars
      have added : (e.addInstance run).Sound (some run.id) := sound.addInstance found rfl new.instances
      obtain ⟨other, found', running⟩ := added.running_eq (List.mem_append_right _ (List.mem_singleton_self run))
      obtain rfl := Option.some.inj (found.symm.trans found')
      have goesOn := letsGoOn_advance running 0 fresh.task
      have begins : ((e.addInstance run).advance run.id 0 fresh.task).engine.instances =
          e.instances ++ [run.goOn definition.activities] := by
        have others : ∀ old ∈ e.instances, old.id ≠ run.id := new.instances
        rw [goesOn.instances, Engine.addInstance, List.map_append, List.map_cons, List.map_nil, if_pos rfl]
        congr 1
        exact (List.map_congr_left fun old member => if_neg (others old member)).trans (List.map_id _)
      have announced := started_advance running 0 fresh.task
      simp only [Option.isNone_some, Bool.false_eq_true, if_false]
      change e.Walks ((e.addInstance run).advance run.id 0 fresh.task).engine
        ((e.addInstance run).advance run.id 0 fresh.task).started none
      rw [announced]
      exact .begins new.instances found rfl rfl rfl begins

/-- An instance that is changed twice is so at once, and no other is. -/
theorem Sound.modified_twice (sound : e.Sound none) {run : ProcessInstance} (atRun : run ∈ e.instances)
    (first second : ProcessInstance → ProcessInstance) (keeps : ∀ r, (first r).id = r.id) :
    ((e.modifyInstance run.id first).modifyInstance run.id second).instances =
      e.instances.map fun r => if r.id = run.id then second (first run) else r := by
  rw [modifyInstance_comp e run.id keeps, modifyInstance]
  exact sound.map_own atRun fun r => second (first r)

theorem Sound.walks_complete (sound : e.Sound none) (fresh task worker : String) (vars : Variables) :
    e.Walks (e.complete fresh task worker vars).engine (e.complete fresh task worker vars).started none := by
  by_cases available : e.available = true
  · cases owned : e.ownedRecord task worker with
    | error reason =>
      simp only [Engine.complete, available, not_true_eq_false, if_false, owned]
      exact .of_eq rfl
    | ok record =>
      by_cases injected : task ∈ e.refusals
      · simp only [Engine.complete, available, not_true_eq_false, if_false, owned, injected, if_true]
        exact .of_eq rfl
      · obtain ⟨member, _, _⟩ := ownedRecord_ok owned
        obtain ⟨run, atRun, own⟩ := sound.belongs record member
        obtain ⟨definition, found⟩ := sound.deployed run atRun
        obtain ⟨other, found', step⟩ := sound.complete_eq available owned injected fresh vars
        rw [own.definitionKey, found, Option.some.injEq] at found'
        subst found'
        have changed : ({ run with vars := run.vars.extend vars } : ProcessInstance) ∈
            (e.completing record vars).instances :=
          mem_modifyInstance.mpr ⟨run, atRun, if_pos own.instanceId.symm⟩
        obtain ⟨other, found', running⟩ := (sound.completing member vars).running_eq changed
        obtain rfl := Option.some.inj (found.symm.trans found')
        have goesOn := letsGoOn_advance running (definition.after record.task.activity) fresh
        have announced : ((e.completing record vars).advance run.id (definition.after record.task.activity)
            fresh).started = run.announces (definition.activities.drop (definition.after record.task.activity)) :=
          started_advance running _ fresh
        rw [step, own.instanceId, announced]
        refine .completes (run.vars.extend vars) member atRun own found ?_
        rw [goesOn.instances, Engine.completing, own.instanceId]
        exact sound.modified_twice atRun (fun r => { r with vars := r.vars.extend vars })
          (fun r => r.goOn (definition.activities.drop (definition.after record.task.activity))) fun _ => rfl
  · simp only [Engine.complete, available, Bool.false_eq_true, not_false_eq_true, if_true]
    exact .of_eq rfl

theorem delivery?_refused {now : Instant} {fresh : FreshNames} {task worker code message : String}
    {vars : Option Variables} {reason : EngineError}
    (refused : (e.raiseBusinessError fresh.task task worker code vars).result = .error reason) :
    e.delivery? (.call now fresh (.businessError task worker code message vars)) = none := by
  simp only [delivery?, step, refused]

theorem Sound.delivery?_accepted (sound : e.Sound none) {now : Instant} {fresh : FreshNames}
    {task worker code message : String} {vars : Option Variables} {record : TaskRecord} {run : ProcessInstance}
    (owned : e.ownedRecord task worker = .ok record) (atRun : run ∈ e.instances) (own : record.task.BelongsTo run)
    (accepted : (e.raiseBusinessError fresh.task task worker code vars).result = .ok ()) :
    e.delivery? (.call now fresh (.businessError task worker code message vars)) =
      some (run.id, ⟨run.history.length, record.task.activity, code⟩) := by
  obtain ⟨member, rfl, _⟩ := ownedRecord_ok owned
  have found : e.record? record.task.id = some record := find?_key sound.tasks_distinct member
  simp only [delivery?, Engine.step, accepted, found, own.instanceId, historyOf, sound.instance?_eq atRun,
    Option.map_some, Option.getD_some]

theorem Sound.walks_businessError (sound : e.Sound none) (now : Instant) (fresh : FreshNames)
    (task worker code message : String) (vars : Option Variables) :
    e.Walks (e.raiseBusinessError fresh.task task worker code vars).engine
      (e.raiseBusinessError fresh.task task worker code vars).started
      (e.delivery? (.call now fresh (.businessError task worker code message vars))) := by
  by_cases available : e.available = true
  · cases owned : e.ownedRecord task worker with
    | error reason =>
      have refused : e.raiseBusinessError fresh.task task worker code vars = e.refuse reason := by
        simp only [Engine.raiseBusinessError, available, not_true_eq_false, if_false, owned]
      rw [delivery?_refused (congrArg Reply.result refused), refused]
      exact .of_eq rfl
    | ok record =>
      obtain ⟨member, _, _⟩ := ownedRecord_ok owned
      obtain ⟨run, atRun, own⟩ := sound.belongs record member
      obtain ⟨definition, found⟩ := sound.deployed run atRun
      obtain ⟨other, found', step⟩ := sound.raiseBusinessError_eq available owned fresh.task code vars
      rw [own.definitionKey, found, Option.some.injEq] at found'
      subst found'
      have accepted := sound.raiseBusinessError_ok available owned fresh.task code vars
      rw [sound.delivery?_accepted owned atRun own accepted, step, own.instanceId]
      let erred (r : ProcessInstance) : ProcessInstance :=
        { r with vars := vars.elim r.vars r.vars.extend, businessErrors := r.businessErrors ++ [code] }
      have erring : e.erring record code vars =
          ((e.removeTask record.task.id).resolveIncidents record.task.id).modifyInstance run.id erred := by
        rw [Engine.erring, own.instanceId]
      cases boundary : definition.boundary? record.task.activity with
      | none =>
        refine .fails (erred run).vars member atRun own found boundary ?_
        simp only [erring]
        exact sound.modified_twice atRun erred
          (fun r => { r with currentActivity := none, state := .endedByError code }) fun _ => rfl
      | some place =>
        have changed : erred run ∈ (e.erring record code vars).instances :=
          mem_modifyInstance.mpr ⟨run, atRun, if_pos own.instanceId.symm⟩
        obtain ⟨other, found', running⟩ := (sound.erring member code vars).running_eq changed
        obtain rfl := Option.some.inj (found.symm.trans found')
        have goesOn := letsGoOn_advance running place fresh.task
        have announced : ((e.erring record code vars).advance run.id place fresh.task).started =
          run.announces (definition.activities.drop place) := started_advance running place fresh.task
        simp only [announced]
        refine .diverts (erred run).vars member atRun own found boundary (goesOn.instances.trans ?_)
        rw [erring]
        exact sound.modified_twice atRun erred (fun r => r.goOn (definition.activities.drop place)) fun _ => rfl
  · have refused : e.raiseBusinessError fresh.task task worker code vars = e.refuse switchedOff := by
      simp only [Engine.raiseBusinessError, available, Bool.false_eq_true, not_false_eq_true, if_true]
    rw [delivery?_refused (congrArg Reply.result refused), refused]
    exact .of_eq rfl

theorem started_lease (now : Instant) (request : LeaseRequest) : (e.lease now request).started = [] := by
  unfold lease
  split
  · rfl
  · split <;> rfl

theorem started_reportFailure (now : Instant) (fresh task worker : String) (report : FailureReport) :
    (e.reportFailure now fresh task worker report).started = [] := by
  cases decided : (e.reportFailure now fresh task worker report).result with
  | error reason => rw [reportFailure_refused_at_once decided]; rfl
  | ok =>
    obtain ⟨expiry, record, available, accepted, owned⟩ := reportFailure_ok decided
    exact (reportFailure_accepted available accepted owned fresh).2.1

theorem walks_setVariables (execution : String) (vars : Variables) :
    e.Walks (e.setVariables execution vars).engine (e.setVariables execution vars).started none := by
  unfold setVariables
  split
  · exact .of_eq rfl
  · split
    · exact .of_eq rfl
    · rename_i run _
      refine .stays (fun r => if r.id = run.id then { r with vars := r.vars.extend vars } else r) (fun r => ?_)
        (fun r => ?_) rfl
      · split <;> exact ⟨rfl, rfl, rfl, rfl, rfl, rfl, rfl⟩
      · split <;> rfl

/-- What any move makes of the instances. -/
theorem Sound.walks (sound : e.Sound none) {move : EngineMove}
    (new : ∀ names, move.names? = some names → names.NewTo e) :
    e.Walks (e.take move) (e.startedBy move) (e.delivery? move) := by
  cases move with
  | endJob job => exact .of_eq rfl
  | call now fresh operation =>
    cases operation with
    | deploy definition => exact .of_eq (deploy_rest e definition).1
    | start key businessKey vars => exact sound.walks_start (new fresh rfl) key businessKey vars
    | lease request =>
      obtain ⟨_, rewrites⟩ := rewrites_lease e now request
      change e.Walks (e.lease now request).engine (e.lease now request).started none
      rw [started_lease]
      exact .of_eq rewrites.instances
    | complete task worker vars => exact sound.walks_complete fresh.task task worker vars
    | businessError task worker code message vars =>
      exact sound.walks_businessError now fresh task worker code message vars
    | failure task worker report =>
      obtain ⟨_, rewrites⟩ := rewrites_reportFailure e now fresh.incident task worker report
      change e.Walks (e.reportFailure now fresh.incident task worker report).engine
        (e.reportFailure now fresh.incident task worker report).started none
      rw [started_reportFailure]
      exact .of_eq rewrites.instances
    | findTask task =>
      change e.Walks (e.findTask task).engine (e.findTask task).started none
      unfold findTask
      split <;> exact .of_eq rfl
    | setVariables execution vars => exact walks_setVariables execution vars
    | scheduleJob due payload =>
      change e.Walks (e.scheduleJob fresh.job due payload).engine (e.scheduleJob fresh.job due payload).started none
      unfold scheduleJob
      split <;> exact .of_eq rfl
    | refuseNextCompletion task =>
      change e.Walks (e.refuseNextCompletion task) [] none
      unfold refuseNextCompletion
      split <;> exact .of_eq rfl
    | setAvailable available => exact .of_eq rfl

end Engine

end TaskLeasing
