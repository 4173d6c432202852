import TaskLeasing.Proofs.Engine.Histories
import TaskLeasing.Proofs.Engine.Incidents

namespace TaskLeasing

/-- All that a call which tells of a task can change: the record of the task, its instance and its incidents, with a
task and an incident that may be new, the refusal of its completion, and the completion that is kept of it. -/
structure Patch where
  task : String
  owner : String
  /-- What becomes of the task's record, nothing if it is removed. -/
  rewrite : TaskRecord → Option TaskRecord
  course : ProcessInstance → ProcessInstance
  opened : Option ExternalTask
  resolves : Bool
  raised : Option Incident
  refuses : Bool
  completed : Option Variables
  keeps_task : ∀ record next, rewrite record = some next → record.SameTask next
  keeps_run : ∀ run, (course run).id = run.id
  raised_own : ∀ i ∈ raised, i.task = task

namespace Patch

def onRecord (p : Patch) (record : TaskRecord) : Option TaskRecord :=
  if record.task.id = p.task then p.rewrite record else some record

def onRun (p : Patch) (run : ProcessInstance) : ProcessInstance := if run.id = p.owner then p.course run else run

def onIncident (p : Patch) (i : Incident) : Incident := i.closeIf (p.resolves && i.task = p.task)

/-- The patch of a call that changes nothing. -/
def none (task owner : String) : Patch where
  task := task
  owner := owner
  rewrite := some
  course := id
  opened := .none
  resolves := false
  raised := .none
  refuses := false
  completed := .none
  keeps_task := by
    rintro record _ ⟨⟩
    exact .refl record
  keeps_run := fun _ => rfl
  raised_own := by simp

/-- The patch of a completion that meets its refusal. -/
def refusal (task owner : String) : Patch := { none task owner with refuses := true }

/-- The patch of an accepted report of a failure. -/
def failure (task owner : String) (report : FailureReport) (expiry : Instant) (raised : Option Incident)
    (own : ∀ i ∈ raised, i.task = task) : Patch :=
  { none task owner with
    rewrite := fun record => some (record.fail report expiry)
    raised := raised
    keeps_task := by
      rintro record _ ⟨⟩
      exact record.sameTask_fail report expiry
    raised_own := own }

/-- The patch of the end of a task. -/
def ending (task owner : String) (course : ProcessInstance → ProcessInstance)
    (keeps : ∀ run, (course run).id = run.id) (opened : Option ExternalTask) (completed : Option Variables) : Patch :=
  { none task owner with
    rewrite := fun _ => .none
    course := course
    opened := opened
    resolves := true
    completed := completed
    keeps_task := by simp
    keeps_run := keeps }

variable {p : Patch}

theorem onRecord_own {record : TaskRecord} (own : record.task.id = p.task) : p.onRecord record = p.rewrite record :=
  if_pos own

theorem onRecord_other {record : TaskRecord} (other : record.task.id ≠ p.task) : p.onRecord record = some record :=
  if_neg other

/-- A record that a patch leaves is one of the task that it was one of. -/
theorem onRecord_sameTask {record next : TaskRecord} (left : p.onRecord record = some next) :
    record.SameTask next := by
  unfold onRecord at left
  split at left
  · exact p.keeps_task record next left
  · cases left
    exact .refl record

theorem onRun_id (p : Patch) (run : ProcessInstance) : (p.onRun run).id = run.id := by
  unfold onRun
  split
  · exact p.keeps_run run
  · rfl

end Patch

/-- An engine with a patch. -/
def Engine.patch (e : Engine) (p : Patch) : Engine :=
  { e with
    instances := e.instances.map p.onRun
    tasks := e.tasks.filterMap p.onRecord ++ p.opened.toList.map fun task => ⟨task, none, e.sequence + 1⟩
    incidents := e.incidents.map p.onIncident ++ p.raised.toList
    refusals := if p.refuses then e.refusals.filter (· ≠ p.task) else e.refusals
    completions := p.completed.elim e.completions fun vars => (e.recordCompletion p.task vars).completions
    sequence := e.sequence + p.opened.toList.length }

/-- Two engines look alike to a call that tells of a task: all that the call goes by is the same. -/
structure Engine.AlikeFor (e other : Engine) (task owner : String) : Prop where
  available : other.available = e.available
  definitions : other.definitions = e.definitions
  record : other.record? task = e.record? task
  run : other.instance? owner = e.instance? owner
  refusals : task ∈ other.refusals ↔ task ∈ e.refusals
  incident : other.hasOpenIncident task = e.hasOpenIncident task

/-- A call is a patch: wherever it finds what it goes by as in this engine, it makes the same change, with the same
result and the same events. -/
def Engine.Patches (e : Engine) (now : Instant) (fresh : FreshNames) {kind : AnswerKind} (operation : Operation kind)
    (p : Patch) : Prop :=
  ∃ result started, ∀ other, e.AlikeFor other p.task p.owner →
    other.step now fresh operation = ⟨other.patch p, result, started⟩

namespace Engine

variable {e other : Engine} {task owner worker : String} {now : Instant} {fresh : FreshNames} {record : TaskRecord}

theorem AlikeFor.refl (e : Engine) (task owner : String) : e.AlikeFor e task owner :=
  ⟨rfl, rfl, rfl, rfl, .rfl, rfl⟩

theorem AlikeFor.owned (alike : e.AlikeFor other task owner) (worker : String) :
    other.ownedRecord task worker = e.ownedRecord task worker := by
  simp only [ownedRecord, alike.record]

section Fields

variable {p : Patch}

theorem patch_removes (removes : ∀ record, p.rewrite record = none) (tasks : List TaskRecord) :
    tasks.filterMap p.onRecord = tasks.filter fun record => record.task.id ≠ p.task := by
  rw [← List.filterMap_eq_filter]
  refine List.filterMap_congr fun record _ => ?_
  by_cases own : record.task.id = p.task
  · simp [Patch.onRecord_own own, removes, Option.guard, own]
  · simp [Patch.onRecord_other own, Option.guard, own]

theorem patch_rewrites (change : TaskRecord → TaskRecord) (rewrites : ∀ record, p.rewrite record = some (change record))
    (tasks : List TaskRecord) :
    tasks.filterMap p.onRecord = tasks.map fun record => if record.task.id = p.task then change record else record := by
  rw [← List.filterMap_eq_map]
  refine List.filterMap_congr fun record _ => ?_
  by_cases own : record.task.id = p.task
  · simp [Patch.onRecord_own own, rewrites, own]
  · simp [Patch.onRecord_other own, own]

theorem patch_stands (stands : p.course = id) (runs : List ProcessInstance) : runs.map p.onRun = runs := by
  have still : p.onRun = id := funext fun run => by simp [Patch.onRun, stands]
  rw [still, List.map_id]

theorem patch_unresolved (unresolved : p.resolves = false) (incidents : List Incident) :
    incidents.map p.onIncident = incidents := by
  have still : p.onIncident = id := funext fun i => by simp [Patch.onIncident, unresolved]
  rw [still, List.map_id]

theorem patch_resolves (resolves : p.resolves = true) (incidents : List Incident) :
    incidents.map p.onIncident = incidents.map fun i => if i.task = p.task then { i with resolved := true } else i := by
  refine List.map_congr_left fun i _ => ?_
  by_cases own : i.task = p.task <;> simp [Patch.onIncident, Incident.closeIf, resolves, own]

end Fields

theorem patch_none (e : Engine) (task owner : String) : e.patch (.none task owner) = e := by
  have records : e.tasks.filterMap (Patch.none task owner).onRecord = e.tasks := by
    rw [patch_rewrites id fun _ => rfl]
    simp
  simp only [patch, records, patch_stands (p := .none task owner) rfl, patch_unresolved (p := .none task owner) rfl]
  simp [Patch.none]

theorem patch_refusal (e : Engine) (task owner : String) : e.patch (.refusal task owner) = e.useRefusal task := by
  have records : e.tasks.filterMap (Patch.refusal task owner).onRecord = e.tasks := by
    rw [patch_rewrites id fun _ => rfl]
    simp
  simp only [patch, records, patch_stands (p := .refusal task owner) rfl,
    patch_unresolved (p := .refusal task owner) rfl]
  simp only [Patch.refusal, Patch.none, Option.toList_none, List.map_nil, List.append_nil]
  rfl

theorem patch_failure (e : Engine) (task owner : String) (report : FailureReport) (expiry : Instant)
    (raised : Option Incident) (own : ∀ i ∈ raised, i.task = task) :
    e.patch (.failure task owner report expiry raised own) =
      raised.elim (e.modifyRecord task fun record => record.fail report expiry)
        (e.modifyRecord task fun record => record.fail report expiry).addIncident := by
  have records := patch_rewrites (p := .failure task owner report expiry raised own) _ (fun _ => rfl) e.tasks
  simp only [patch, records, patch_stands (p := .failure task owner report expiry raised own) rfl,
    patch_unresolved (p := .failure task owner report expiry raised own) rfl]
  cases raised with
  | none =>
    simp only [Patch.failure, Patch.none, Option.toList_none, List.map_nil, List.append_nil]
    rfl
  | some i =>
    simp only [Patch.failure, Patch.none, Option.toList_none, List.map_nil, List.append_nil]
    rfl

/-- An engine with the task that an instance comes to wait for, if it does. -/
def open? (e : Engine) (opened : Option ExternalTask) : Engine := opened.elim e e.addTask

/-- An engine without a task that has ended, and with the completion that is kept of it, if one is. -/
def closing (e : Engine) (task : String) (completed : Option Variables) : Engine :=
  completed.elim ((e.removeTask task).resolveIncidents task)
    (((e.removeTask task).resolveIncidents task).recordCompletion task)

theorem patch_ending (e : Engine) (task owner : String) {course : ProcessInstance → ProcessInstance}
    (keeps : ∀ run, (course run).id = run.id) (opened : Option ExternalTask) (completed : Option Variables) :
    e.patch (.ending task owner course keeps opened completed) =
      ((e.closing task completed).modifyInstance owner course).open? opened := by
  have records := patch_removes (p := .ending task owner course keeps opened completed) (fun _ => rfl) e.tasks
  have incidents := patch_resolves (p := .ending task owner course keeps opened completed) rfl e.incidents
  simp only [patch, records, incidents]
  cases opened with
  | none =>
    simp only [Patch.ending, Patch.none, Option.toList_none, List.map_nil, List.append_nil]
    cases completed <;> rfl
  | some target =>
    simp only [Patch.ending, Patch.none, Option.toList_none, List.append_nil]
    cases completed <;> rfl

/-- Where an instance is known with its definition it goes on, whatever else the engine has. -/
theorem advance_eq {id : String} {run : ProcessInstance} {definition : ProcessDefinition}
    (running : e.running id = .ok (run, definition)) (place : Nat) (fresh : String) :
    e.advance id place fresh =
      ⟨(e.modifyInstance run.id fun r => r.goOn (definition.activities.drop place)).open?
          ((waitsIn? (definition.activities.drop place)).map fun target =>
            run.openTask definition.key target.1.id target.2 fresh), .ok (),
        (enteredOf (definition.activities.drop place)).map fun activity => ⟨definition.key, activity.id, run.id⟩⟩ := by
  unfold advance
  simp only [running]
  rw [walk_started, walk_engine]
  cases waitsIn? (definition.activities.drop place) <;> rfl

/-- A change of an instance, which stays one of its definition, is seen where it is looked for. -/
theorem running_modifyInstance {id : String} {run : ProcessInstance} {definition : ProcessDefinition}
    (running : e.running id = .ok (run, definition)) {change : ProcessInstance → ProcessInstance}
    (keeps : ∀ run, (change run).id = run.id) (key : ∀ run, (change run).definitionKey = run.definitionKey) :
    (e.modifyInstance id change).running id = .ok (change run, definition) := by
  have changed : (e.modifyInstance id change).instance? id =
      (e.instance? id).map fun run => if run.id = id then change run else run :=
    instance?_map rfl (fun run => by split <;> simp [keeps]) id
  obtain ⟨found, known⟩ := running_ok running
  have named : run.id = id := by simpa using List.find?_some found
  have deployed : (e.modifyInstance id change).definition? run.definitionKey = some definition := known
  simp only [Engine.running, changed, found, Option.map_some, named, if_true, key, deployed]

theorem AlikeFor.running (alike : e.AlikeFor other task owner) : other.running owner = e.running owner := by
  simp only [Engine.running, alike.run, Engine.definition?, alike.definitions]

/-- What a call that tells of a task comes to, as a patch of the task and its instance. -/
def Tells (e : Engine) (now : Instant) (fresh : FreshNames) {kind : AnswerKind} (operation : Operation kind)
    (task owner : String) : Prop :=
  ∃ p : Patch, p.task = task ∧ p.owner = owner ∧ (∀ opened ∈ p.opened, opened.id = fresh.task) ∧
    e.Patches now fresh operation p

/-- A call that is refused wherever things are as here changes nothing. -/
theorem tells_refused {kind : AnswerKind} {operation : Operation kind} (reason : EngineError)
    (refused : ∀ other, e.AlikeFor other task owner → other.step now fresh operation = other.refuse reason) :
    e.Tells now fresh operation task owner :=
  ⟨.none task owner, rfl, rfl, by simp [Patch.none], .error reason, [], fun other alike => by
    rw [patch_none]
    exact refused other alike⟩

variable {run : ProcessInstance} {definition : ProcessDefinition} {kind : AnswerKind} {operation : Operation kind}

theorem AlikeFor.closing_running (alike : e.AlikeFor other task owner)
    (running : e.running owner = .ok (run, definition)) (completed : Option Variables) :
    (other.closing task completed).running owner = .ok (run, definition) := by
  have same : (other.closing task completed).running owner = other.running owner := by cases completed <;> rfl
  rw [same, alike.running, running]

/-- A task that ends leaves its instance changed, and no more. -/
theorem tells_ended (completed : Option Variables) (value : kind.Value)
    (change : ProcessInstance → ProcessInstance) (keeps : ∀ run, (change run).id = run.id)
    (steps : ∀ other, e.AlikeFor other task owner →
      other.step now fresh operation = ((other.closing task completed).modifyInstance owner change).answer value) :
    e.Tells now fresh operation task owner := by
  refine ⟨.ending task owner change keeps none completed, rfl, rfl, by simp [Patch.ending], .ok value, [],
    fun other alike => ?_⟩
  rw [patch_ending]
  exact steps other alike

/-- A task that ends leaves its instance to go on from a place in its definition, where it may come to wait in the
next task. -/
theorem tells_goOn {operation : Operation .done} (running : e.running owner = .ok (run, definition)) (place : Nat)
    (completed : Option Variables) (change : ProcessInstance → ProcessInstance)
    (keeps : ∀ run, (change run).id = run.id) (key : ∀ run, (change run).definitionKey = run.definitionKey)
    (steps : ∀ other, e.AlikeFor other task owner → other.step now fresh operation =
      ((other.closing task completed).modifyInstance owner change).advance owner place fresh.task) :
    e.Tells now fresh operation task owner := by
  have keepsOn : ∀ run, ((change run).goOn (definition.activities.drop place)).id = run.id := keeps
  refine ⟨.ending task owner (fun run => (change run).goOn (definition.activities.drop place)) keepsOn
    ((waitsIn? (definition.activities.drop place)).map fun target =>
      (change run).openTask definition.key target.1.id target.2 fresh.task) completed, rfl, rfl, ?_, .ok (),
    (enteredOf (definition.activities.drop place)).map fun activity => ⟨definition.key, activity.id, (change run).id⟩,
    fun other alike => ?_⟩
  · intro opened member
    obtain ⟨target, _, rfl⟩ := Option.map_eq_some_iff.mp member
    rfl
  · have alike : e.AlikeFor other task owner := alike
    have knows := running_modifyInstance (alike.closing_running running completed) keeps key
    have named : run.id = owner := by simpa using List.find?_some (running_ok running).1
    have own : (change run).id = owner := (keeps run).trans named
    rw [patch_ending, steps other alike, advance_eq knows, own, modifyInstance_comp _ _ keeps]

theorem Sound.tells_complete (sound : e.Sound none) (member : record ∈ e.tasks) (now : Instant) (fresh : FreshNames)
    (worker : String) (vars : Variables) :
    e.Tells now fresh (.complete record.task.id worker vars) record.task.id record.task.instanceId := by
  obtain ⟨run, definition, _, idEq, _, running⟩ := sound.running_owner member
  by_cases available : e.available = true
  · cases owned : e.ownedRecord record.task.id worker with
    | error reason =>
      refine tells_refused reason fun other alike => ?_
      simp only [Engine.step, Engine.complete, alike.available, available, alike.owned, owned, not_true_eq_false,
        if_false]
    | ok own =>
      obtain ⟨atOwn, sameId, _⟩ := ownedRecord_ok owned
      obtain rfl := sound.record_unique atOwn member sameId
      by_cases refused : own.task.id ∈ e.refusals
      · refine ⟨.refusal _ own.task.instanceId, rfl, rfl, by simp [Patch.refusal, Patch.none],
          .error (.unavailable ("completion of " ++ own.task.id ++ " rejected")), [], fun other alike => ?_⟩
        have alike : e.AlikeFor other own.task.id own.task.instanceId := alike
        have injected := alike.refusals.mpr refused
        rw [patch_refusal]
        simp only [Engine.step, Engine.complete, alike.available, available, alike.owned, owned, not_true_eq_false,
          if_false, injected, if_true]
        rfl
      · refine tells_goOn running (definition.after own.task.activity) (some vars)
          (fun run => { run with vars := run.vars.extend vars }) (fun _ => rfl) (fun _ => rfl) fun other alike => ?_
        have injected : own.task.id ∉ other.refusals := fun injected => refused (alike.refusals.mp injected)
        have knows : (((other.removeTask own.task.id).resolveIncidents own.task.id).recordCompletion own.task.id
            vars).running own.task.instanceId = .ok (run, definition) := alike.closing_running running (some vars)
        simp only [Engine.step, Engine.complete, alike.available, available, alike.owned, owned, not_true_eq_false,
          if_false, injected, knows, idEq]
        rfl
  · refine tells_refused switchedOff fun other alike => ?_
    simp only [Engine.step, Engine.complete, alike.available, available, Bool.false_eq_true, not_false_eq_true,
      if_true]

theorem Sound.tells_businessError (sound : e.Sound none) (member : record ∈ e.tasks) (now : Instant)
    (fresh : FreshNames) (worker code message : String) (vars : Option Variables) :
    e.Tells now fresh (.businessError record.task.id worker code message vars) record.task.id
      record.task.instanceId := by
  obtain ⟨run, definition, _, idEq, _, running⟩ := sound.running_owner member
  by_cases available : e.available = true
  · cases owned : e.ownedRecord record.task.id worker with
    | error reason =>
      refine tells_refused reason fun other alike => ?_
      simp only [Engine.step, Engine.raiseBusinessError, alike.available, available, alike.owned, owned,
        not_true_eq_false, if_false]
    | ok own =>
      obtain ⟨atOwn, sameId, _⟩ := ownedRecord_ok owned
      obtain rfl := sound.record_unique atOwn member sameId
      have steps (other : Engine) (alike : e.AlikeFor other own.task.id own.task.instanceId) :
          ((other.removeTask own.task.id).resolveIncidents own.task.id).running own.task.instanceId =
            .ok (run, definition) := alike.closing_running running none
      cases boundary : definition.boundary? own.task.activity with
      | some place =>
        refine tells_goOn running place none (fun run =>
          { run with
            vars := vars.elim run.vars run.vars.extend
            businessErrors := run.businessErrors ++ [code] }) (fun _ => rfl) (fun _ => rfl) fun other alike => ?_
        simp only [Engine.step, Engine.raiseBusinessError, alike.available, available, alike.owned, owned,
          not_true_eq_false, if_false, steps other alike, boundary, idEq]
        rfl
      | none =>
        refine tells_ended none () (fun run =>
          { run with
            vars := vars.elim run.vars run.vars.extend
            businessErrors := run.businessErrors ++ [code]
            currentActivity := none
            state := .endedByError code }) (fun _ => rfl) fun other alike => ?_
        simp only [Engine.step, Engine.raiseBusinessError, alike.available, available, alike.owned, owned,
          not_true_eq_false, if_false, steps other alike, boundary, idEq]
        rw [modifyInstance_comp]
        · rfl
        · exact fun _ => rfl
  · refine tells_refused switchedOff fun other alike => ?_
    simp only [Engine.step, Engine.raiseBusinessError, alike.available, available, Bool.false_eq_true,
      not_false_eq_true, if_true]

theorem tells_failure (e : Engine) (now : Instant) (fresh : FreshNames) (task owner worker : String)
    (report : FailureReport) : e.Tells now fresh (.failure task worker report) task owner := by
  by_cases available : e.available = true
  · cases accepted : deadline now report.delay with
    | error reason =>
      refine tells_refused reason fun other alike => ?_
      simp only [Engine.step, reportFailure, alike.available, available, not_true_eq_false, if_false, accepted]
    | ok expiry =>
      cases owned : e.ownedRecord task worker with
      | error reason =>
        refine tells_refused reason fun other alike => ?_
        simp only [Engine.step, reportFailure, alike.available, available, not_true_eq_false, if_false, accepted,
          alike.owned, owned]
      | ok own =>
        refine ⟨.failure task owner report expiry
          (if report.retries = 0 ∧ ¬ e.hasOpenIncident task then
            some ⟨fresh.incident, own.task.instanceId, task, own.task.activity, report.message,
              report.details, now, false⟩ else none) ?_, rfl, rfl, by simp [Patch.failure, Patch.none], .ok (), [],
          fun other alike => ?_⟩
        · intro i member
          split at member <;> cases member
          rfl
        · have alike : e.AlikeFor other task owner := alike
          have switchedOn : other.available = true := alike.available.trans available
          rw [patch_failure]
          change other.reportFailure now fresh.incident task worker report = _
          rw [reportFailure_eq switchedOn accepted ((alike.owned worker).trans owned), alike.incident]
          split <;> rfl
  · refine tells_refused switchedOff fun other alike => ?_
    simp only [Engine.step, reportFailure, alike.available, available, Bool.false_eq_true, not_false_eq_true, if_true]

/-- Every call that tells of an open task is a patch of the task and its instance. -/
theorem Sound.tells (sound : e.Sound none) (member : record ∈ e.tasks) (now : Instant) (fresh : FreshNames)
    {operation : Operation kind} (told : operation.toldBy? = some (record.task.id, worker)) :
    e.Tells now fresh operation record.task.id record.task.instanceId := by
  cases operation with
  | complete id reporter vars =>
    cases told
    exact sound.tells_complete member now fresh worker vars
  | businessError id reporter code message vars =>
    cases told
    exact sound.tells_businessError member now fresh worker code message vars
  | failure id reporter report =>
    cases told
    exact tells_failure e now fresh record.task.id record.task.instanceId worker report
  | _ => cases told

end Engine

end TaskLeasing
