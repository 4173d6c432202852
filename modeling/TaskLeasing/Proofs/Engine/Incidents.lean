import TaskLeasing.Proofs.Engine.Accounts

namespace TaskLeasing

/-- An incident, resolved if its task has ended. -/
def Incident.closeIf (incident : Incident) (ended : Bool) : Incident :=
  { incident with resolved := incident.resolved || ended }

@[simp] theorem Incident.closeIf_false (incident : Incident) : incident.closeIf false = incident := by
  simp only [closeIf, Bool.or_false]

@[simp] theorem Incident.closeIf_closeIf (incident : Incident) (first second : Bool) :
    (incident.closeIf first).closeIf second = incident.closeIf (first || second) := by
  simp only [closeIf, Bool.or_assoc]

namespace Engine

/-- The incidents of a task that are not resolved. -/
def openIncidentsOf (e : Engine) (task : String) : List Incident :=
  e.incidents.filter fun i => i.task = task ∧ ¬ i.resolved

variable {e after : Engine}

theorem hasOpenIncident_iff {task : String} : e.hasOpenIncident task = true ↔ e.openIncidentsOf task ≠ [] := by
  simp [hasOpenIncident, openIncidentsOf, List.any_eq_true]

/-- The order among incidents: one that is not resolved is of an open task and the only one of it, and a task
without retries has one. -/
structure Ledger (e : Engine) : Prop where
  named : ∀ i ∈ e.incidents, i.resolved = false → ∃ record ∈ e.tasks, record.task.id = i.task ∧
    record.task.instanceId = i.instanceId ∧ record.task.activity = i.activity
  single : ∀ task, (e.openIncidentsOf task).length ≤ 1
  stuck : ∀ record ∈ e.tasks, record.task.retries = some 0 → e.hasOpenIncident record.task.id = true

theorem ledger_empty : empty.Ledger := ⟨by simp [empty], fun _ => Nat.zero_le _, by simp [empty]⟩

/-- What calls that tell of no task leave of the records: each goes on as one of its task, and none runs out of
retries. -/
structure KeepsRecords (e after : Engine) : Prop where
  kept : ∀ old ∈ e.tasks, ∃ record ∈ after.tasks, old.SameTask record
  stuck : ∀ record ∈ after.tasks, record.task.retries = some 0 →
    ∃ old ∈ e.tasks, old.task.id = record.task.id ∧ old.task.retries = some 0

theorem KeepsRecords.of_eq (tasks : after.tasks = e.tasks) : e.KeepsRecords after where
  kept := fun old member => ⟨old, tasks ▸ member, .refl old⟩
  stuck := fun record member exhausted => ⟨record, tasks ▸ member, rfl, exhausted⟩

theorem keepsRecords_start (e : Engine) (fresh : FreshNames) (key : String) (businessKey : Option String)
    (vars : Variables) : e.KeepsRecords (e.start fresh key businessKey vars).engine where
  kept := by
    intro old member
    refine ⟨old, ?_, .refl old⟩
    unfold start
    split
    · exact member
    · split
      · exact member
      · exact mem_advance (e.addInstance _) _ _ _ member
  stuck := by
    intro record member exhausted
    obtain ⟨_, ordinary, _⟩ := ordinary_start e fresh key businessKey vars
    rcases ordinary.records record member with old | opened
    · exact ⟨record, old.1, rfl, exhausted⟩
    · rw [opened.1.untried] at exhausted
      cases exhausted

theorem keepsRecords_lease (e : Engine) (now : Instant) (request : LeaseRequest) :
    e.KeepsRecords (e.lease now request).engine := by
  cases result : (e.lease now request).result with
  | error reason => exact .of_eq (by rw [lease_refused result])
  | ok tasks =>
    obtain ⟨expiry, available, accepted, _⟩ := lease_ok result
    rw [lease_eq available accepted]
    refine ⟨fun old member => ⟨_, List.mem_map_of_mem member, (old.sameTask_lock request.worker expiry).ite⟩,
      fun record member exhausted => ?_⟩
    obtain ⟨old, atOld, rfl⟩ := List.mem_map.mp member
    refine ⟨old, atOld, ?_⟩
    split at exhausted
    · next among => rw [if_pos among]; exact ⟨rfl, exhausted⟩
    · next spared => rw [if_neg spared]; exact ⟨rfl, exhausted⟩

theorem keepsRecords_step (e : Engine) (now : Instant) (fresh : FreshNames) {kind : AnswerKind}
    {operation : Operation kind} (untold : operation.toldBy? = none) :
    e.KeepsRecords (e.step now fresh operation).engine := by
  cases operation with
  | deploy definition => exact .of_eq (deploy_rest e definition).2.1
  | start key businessKey vars => exact keepsRecords_start e fresh key businessKey vars
  | lease request => exact keepsRecords_lease e now request
  | findTask task =>
    change e.KeepsRecords (e.findTask task).engine
    unfold findTask
    split <;> exact .of_eq rfl
  | setVariables execution vars =>
    change e.KeepsRecords (e.setVariables execution vars).engine
    unfold setVariables
    split
    · exact .of_eq rfl
    · split <;> exact .of_eq rfl
  | scheduleJob due payload =>
    change e.KeepsRecords (e.scheduleJob fresh.job due payload).engine
    unfold scheduleJob
    split <;> exact .of_eq rfl
  | refuseNextCompletion task =>
    change e.KeepsRecords (e.refuseNextCompletion task)
    unfold refuseNextCompletion
    split <;> exact .of_eq rfl
  | setAvailable available => exact .of_eq rfl
  | _ => cases untold

/-- Incidents that a failure of a task raises: one at most, for the task of the record, and only if it has none
open. -/
structure Raises (e : Engine) (record : TaskRecord) (raised : List Incident) : Prop where
  named : ∀ i ∈ raised, i.task = record.task.id ∧ i.instanceId = record.task.instanceId ∧
    i.activity = record.task.activity ∧ i.resolved = false
  single : raised.length ≤ 1
  first : raised ≠ [] → e.hasOpenIncident record.task.id = false

theorem reportFailure_incidents (available : e.available = true) {now expiry : Instant} {report : FailureReport}
    (accepted : deadline now report.delay = .ok expiry) {task worker : String} {record : TaskRecord}
    (owned : e.ownedRecord task worker = .ok record) (fresh : String) :
    ∃ raised, (e.reportFailure now fresh task worker report).engine.incidents = e.incidents ++ raised ∧
      e.Raises record raised := by
  obtain ⟨_, rfl, _⟩ := ownedRecord_ok owned
  rw [reportFailure_eq available accepted owned]
  split
  · next raises =>
    exact ⟨_, rfl, by simp, Nat.le_refl _, fun _ => by simpa using raises.2⟩
  · exact ⟨[], (List.append_nil _).symm, by simp, Nat.zero_le _, by simp⟩

theorem reportFailure_tasks (available : e.available = true) {now expiry : Instant} {report : FailureReport}
    (accepted : deadline now report.delay = .ok expiry) {task worker : String} {record : TaskRecord}
    (owned : e.ownedRecord task worker = .ok record) (fresh : String) :
    (e.reportFailure now fresh task worker report).engine.tasks =
      e.tasks.map fun r => if r.task.id = task then r.fail report expiry else r := by
  rw [reportFailure_eq available accepted owned]
  split <;> rfl

namespace Ledger

theorem stays (ledger : e.Ledger) (incidents : after.incidents = e.incidents) (records : e.KeepsRecords after) :
    after.Ledger where
  named := by
    intro i member isOpen
    obtain ⟨old, atOld, id, instanceId, activity⟩ := ledger.named i (incidents ▸ member) isOpen
    obtain ⟨record, atRecord, same⟩ := records.kept old atOld
    exact ⟨record, atRecord, same.id.trans id, same.instanceId.trans instanceId, same.activity.trans activity⟩
  single := by
    intro task
    unfold openIncidentsOf
    rw [incidents]
    exact ledger.single task
  stuck := by
    intro record member exhausted
    obtain ⟨old, atOld, same, exhausted⟩ := records.stuck record member exhausted
    unfold hasOpenIncident
    rw [incidents, ← same]
    exact ledger.stuck old atOld exhausted

/-- The end of a task resolves its incidents and no others. -/
theorem closes (ledger : e.Ledger) {task worker : String} {ending : TaskEnd}
    (closes : e.Closes after task worker ending)
    (stuck : ∀ record ∈ after.tasks, record.task.retries = some 0 → after.hasOpenIncident record.task.id = true) :
    after.Ledger where
  named := by
    intro i member isOpen
    rw [closes.incidents] at member
    obtain ⟨old, atOld, rfl⟩ := List.mem_map.mp member
    by_cases own : old.task = task
    · rw [if_pos own] at isOpen
      cases isOpen
    · rw [if_neg own] at isOpen ⊢
      obtain ⟨record, atRecord, id, rest⟩ := ledger.named old atOld isOpen
      exact ⟨record, closes.others record atRecord (id ▸ own), id, rest⟩
  single := by
    intro other
    refine Nat.le_trans ?_ (ledger.single other)
    unfold openIncidentsOf
    rw [closes.incidents, resolveIncidents, List.filter_map, List.length_map, ← List.countP_eq_length_filter,
      ← List.countP_eq_length_filter]
    refine List.countP_mono_left fun i _ isOpen => ?_
    simp only [Function.comp_apply, decide_eq_true_eq] at isOpen ⊢
    split at isOpen
    · exact absurd rfl isOpen.2
    · exact isOpen
  stuck := stuck

/-- A report of a failure raises an incident only for a task that has none open. -/
theorem failure (ledger : e.Ledger) (now : Instant) (fresh task worker : String) (report : FailureReport) :
    (e.reportFailure now fresh task worker report).engine.Ledger := by
  cases result : (e.reportFailure now fresh task worker report).result with
  | error reason =>
    rw [reportFailure_refused result]
    exact ledger
  | ok _ =>
    obtain ⟨expiry, failed, available, accepted, owned⟩ := reportFailure_ok result
    have atFailed := (ownedRecord_ok owned).1
    have terminal := (reportFailure_accepted available accepted owned fresh).2.2
    obtain ⟨raised, incidents, new⟩ := reportFailure_incidents available accepted owned fresh
    have tasks := reportFailure_tasks available accepted owned fresh
    have goesOn {old : TaskRecord} (member : old ∈ e.tasks) :
        ∃ record ∈ (e.reportFailure now fresh task worker report).engine.tasks, old.SameTask record := by
      rw [tasks]
      exact ⟨_, List.mem_map_of_mem member, (old.sameTask_fail report expiry).ite⟩
    refine ⟨fun i member isOpen => ?named, fun other => ?single, fun record member exhausted => ?stuck⟩
    case named =>
      rw [incidents] at member
      rcases List.mem_append.mp member with old | atRaised
      · obtain ⟨was, atWas, id, instanceId, activity⟩ := ledger.named i old isOpen
        obtain ⟨record, atRecord, same⟩ := goesOn atWas
        exact ⟨record, atRecord, same.id.trans id, same.instanceId.trans instanceId, same.activity.trans activity⟩
      · obtain ⟨record, atRecord, same⟩ := goesOn atFailed
        obtain ⟨id, instanceId, activity, _⟩ := new.named i atRaised
        exact ⟨record, atRecord, same.id.trans id.symm, same.instanceId.trans instanceId.symm,
          same.activity.trans activity.symm⟩
    case single =>
      have parts : (e.reportFailure now fresh task worker report).engine.openIncidentsOf other =
          e.openIncidentsOf other ++ raised.filter fun i => i.task = other ∧ ¬ i.resolved := by
        unfold openIncidentsOf
        rw [incidents, List.filter_append]
      rw [parts, List.length_append]
      have few := List.length_filter_le (fun i : Incident => decide (i.task = other ∧ ¬ i.resolved)) raised
      have single := new.single
      cases added : raised.filter fun i => i.task = other ∧ ¬ i.resolved with
      | nil => exact ledger.single other
      | cons i rest =>
        -- an incident was raised for the task, so it had none open
        have atI : i ∈ raised.filter fun i => i.task = other ∧ ¬ i.resolved := added ▸ List.mem_cons_self
        obtain ⟨atRaised, names⟩ := List.mem_filter.mp atI
        have idle := new.first (List.ne_nil_of_mem atRaised)
        rw [← (new.named i atRaised).1, (decide_eq_true_eq.mp names).1] at idle
        have none' : e.openIncidentsOf other = [] := by
          by_contra some'
          rw [hasOpenIncident_iff.mpr some'] at idle
          cases idle
        rw [added] at few
        rw [none', List.length_nil]
        omega
    case stuck =>
      rw [tasks] at member
      obtain ⟨old, atOld, rfl⟩ := List.mem_map.mp member
      by_cases own : old.task.id = task
      · rw [if_pos own] at exhausted ⊢
        change (e.reportFailure now fresh task worker report).engine.hasOpenIncident old.task.id = true
        rw [own]
        exact terminal (Option.some.inj exhausted)
      · rw [if_neg own] at exhausted ⊢
        have before := ledger.stuck old atOld exhausted
        unfold hasOpenIncident at before ⊢
        rw [incidents, List.any_append, before, Bool.true_or]

/-- A call that asks for the end of a task. -/
theorem decided (ledger : e.Ledger) (sound : e.Sound none) (now : Instant) {fresh : FreshNames}
    (new : fresh.NewTo e) {kind : AnswerKind} {operation : Operation kind} (isPlain : operation.isPlain = true)
    {task : String} {ending : TaskEnd} (asked : operation.ending? task = some ending) :
    (e.step now fresh operation).engine.Ledger := by
  obtain ⟨worker, _, decided⟩ := sound.decides now new asked
  rcases decided with ⟨_, closes⟩ | ⟨_, tasks, kept⟩
  · refine ledger.closes closes fun record member exhausted => ?_
    obtain ⟨_, ordinary, _⟩ := ordinary_step e now fresh isPlain
    rcases ordinary.records record member with ⟨old, stillOpen⟩ | ⟨opened, _⟩
    · exact stillOpen (ledger.stuck record old exhausted)
    · rw [opened.untried] at exhausted
      cases exhausted
  · exact ledger.stays kept.incidents (.of_eq tasks)

theorem step (ledger : e.Ledger) (sound : e.Sound none) (now : Instant) {fresh : FreshNames}
    (new : fresh.NewTo e) {kind : AnswerKind} (operation : Operation kind) :
    (e.step now fresh operation).engine.Ledger := by
  have untold {kind : AnswerKind} {operation : Operation kind} (untold : operation.toldBy? = none) :
      (e.step now fresh operation).engine.Ledger :=
    ledger.stays (sameLedger_step e now fresh untold).incidents (keepsRecords_step e now fresh untold)
  cases operation with
  | complete id worker vars => exact ledger.decided sound now new rfl (if_pos (Eq.refl id))
  | businessError id worker code message vars => exact ledger.decided sound now new rfl (if_pos (Eq.refl id))
  | failure id worker report => exact ledger.failure now fresh.incident id worker report
  | _ => exact untold rfl

end Ledger

theorem ledger_run {moves : List EngineMove} (fresh : FreshMoves moves) : (empty.run moves).Ledger := by
  induction moves using List.reverseRecOn with
  | nil => exact ledger_empty
  | append_singleton before move ih =>
    obtain ⟨sound, known⟩ := run_sound fresh.left
    rw [run_append, run_cons, run_nil]
    cases move with
    | endJob job => exact (ih fresh.left).stays rfl (.of_eq rfl)
    | call now names operation =>
      have new : names.NewTo (empty.run before) := known.newTo fun given atGiven =>
        fresh.apart atGiven (List.mem_singleton_self names)
      exact (ih fresh.left).step sound now new operation

/-- How incidents go on: those of tasks that have ended are resolved, and new ones come after them. -/
def GoOn (incidents later : List Incident) (ended : String → Bool) : Prop :=
  ∃ raised, later = (incidents.map fun i => i.closeIf (ended i.task)) ++ raised ∧
    ∀ i ∈ raised, i.resolved = true → ended i.task = true

theorem GoOn.of_append {incidents raised : List Incident} {ended : String → Bool}
    (nothing : ∀ task, ended task = false) (new : ∀ i ∈ raised, i.resolved = false) :
    GoOn incidents (incidents ++ raised) ended := by
  refine ⟨raised, ?_, fun i member resolved => ?_⟩
  · simp [nothing]
  · rw [new i member] at resolved
    cases resolved

theorem GoOn.refl {incidents : List Incident} {ended : String → Bool} (nothing : ∀ task, ended task = false) :
    GoOn incidents incidents ended := by
  have kept : GoOn incidents (incidents ++ []) ended := .of_append nothing (by simp)
  rwa [List.append_nil] at kept

theorem GoOn.trans {incidents later last : List Incident} {first second : String → Bool}
    (before : GoOn incidents later first) (after : GoOn later last second) :
    GoOn incidents last fun task => first task || second task := by
  obtain ⟨raised, rfl, old⟩ := before
  obtain ⟨new, rfl, fresh⟩ := after
  refine ⟨(raised.map fun i => i.closeIf (second i.task)) ++ new, ?_, fun i member resolved => ?_⟩
  · rw [List.map_append, List.map_map, List.append_assoc]
    simp only [Function.comp_def, Incident.closeIf_closeIf]
    rfl
  · rcases List.mem_append.mp member with was | added
    · obtain ⟨i, atI, rfl⟩ := List.mem_map.mp was
      rcases (Bool.or_eq_true _ _).mp resolved with already | now
      · exact (Bool.or_eq_true _ _).mpr (.inl (old i atI already))
      · exact (Bool.or_eq_true _ _).mpr (.inr now)
    · exact (Bool.or_eq_true _ _).mpr (.inr (fresh i added resolved))

/-- A call that asks for the end of a task resolves the incidents of that task if it is accepted, and none if
not. -/
theorem goOn_decided (sound : e.Sound none) (now : Instant) {fresh : FreshNames} (new : fresh.NewTo e)
    {kind : AnswerKind} {operation : Operation kind} {task : String} {ending : TaskEnd}
    (asked : operation.ending? task = some ending) :
    GoOn e.incidents (e.step now fresh operation).engine.incidents fun id =>
      (endingOf? id e (.call now fresh operation)).isSome := by
  obtain ⟨worker, _, decided⟩ := sound.decides now new asked
  rcases decided with ⟨accepted, closes⟩ | ⟨refused, _, kept⟩
  · refine ⟨[], ?_, by simp⟩
    rw [closes.incidents, List.append_nil]
    refine List.map_congr_left fun i _ => ?_
    simp only [endingOf?_accepted accepted]
    by_cases own : i.task = task
    · rw [if_pos own]
      simp [Incident.closeIf, own, asked]
    · rw [if_neg own, Operation.ending?_other asked (Ne.symm own), Option.isSome_none, Incident.closeIf_false]
  · rw [kept.incidents]
    exact .refl fun id => by rw [endingOf?_refused refused, Option.isSome_none]

theorem goOn_take (sound : e.Sound none) {move : EngineMove}
    (new : ∀ names, move.names? = some names → names.NewTo e) :
    GoOn e.incidents (e.take move).incidents fun id => (endingOf? id e move).isSome := by
  cases move with
  | endJob job => exact .refl fun _ => rfl
  | call now fresh operation =>
    have untold {kind : AnswerKind} {operation : Operation kind} (untold : operation.toldBy? = none)
        (unasked : ∀ id, operation.ending? id = none) :
        GoOn e.incidents (e.step now fresh operation).engine.incidents fun id =>
          (endingOf? id e (.call now fresh operation)).isSome := by
      rw [(sameLedger_step e now fresh untold).incidents]
      exact .refl fun id => by rw [endingOf?_unasked (unasked id), Option.isSome_none]
    change GoOn e.incidents (e.step now fresh operation).engine.incidents _
    cases operation with
    | complete id worker vars => exact goOn_decided sound now (new fresh rfl) (if_pos (Eq.refl id))
    | businessError id worker code message vars =>
      exact goOn_decided sound now (new fresh rfl) (if_pos (Eq.refl id))
    | failure id worker report =>
      have nothing (other : String) :
          (endingOf? other e (.call now fresh (.failure id worker report))).isSome = false := by
        rw [endingOf?_unasked rfl, Option.isSome_none]
      change GoOn e.incidents (e.reportFailure now fresh.incident id worker report).engine.incidents _
      cases result : (e.reportFailure now fresh.incident id worker report).result with
      | error reason =>
        rw [reportFailure_refused result]
        exact .refl nothing
      | ok _ =>
        obtain ⟨expiry, record, available, accepted, owned⟩ := reportFailure_ok result
        obtain ⟨raised, incidents, raises⟩ := reportFailure_incidents available accepted owned fresh.incident
        rw [incidents]
        exact .of_append nothing fun i member => (raises.named i member).2.2.2
    | _ => exact untold rfl fun _ => rfl

/-- In the course of any moves, the incidents of a task are resolved when the task ends, and not before. -/
theorem goOn_run {moves more : List EngineMove} (fresh : FreshMoves (moves ++ more)) :
    GoOn (empty.run moves).incidents (empty.run (moves ++ more)).incidents fun task =>
      !((empty.run moves).endsOf task more).isEmpty := by
  induction more using List.reverseRecOn with
  | nil =>
    rw [List.append_nil]
    exact .refl fun _ => rfl
  | append_singleton before move ih =>
    rw [← List.append_assoc] at fresh ⊢
    obtain ⟨sound, known⟩ := run_sound fresh.left
    have new : ∀ names, move.names? = some names → names.NewTo (empty.run (moves ++ before)) := by
      intro names brings
      refine known.newTo fun given atGiven => fresh.apart atGiven ?_
      exact List.mem_filterMap.mpr ⟨move, List.mem_singleton_self move, brings⟩
    have further := (ih fresh.left).trans (goOn_take sound new)
    have seen (task : String) : (!((empty.run moves).endsOf task (before ++ [move])).isEmpty) =
        (!((empty.run moves).endsOf task before).isEmpty ||
          (endingOf? task (empty.run (moves ++ before)) move).isSome) := by
      rw [endsOf_concat, ← run_append]
      cases endingOf? task (empty.run (moves ++ before)) move <;> simp
    rw [run_append _ (moves ++ before), run_cons, run_nil]
    simpa only [seen] using further

/-- After any calls with names of their own, an incident that is not resolved is one of an open task, of its
instance and activity, and the only one of the task; an open task without retries has one. Whatever calls
follow, no incident is lost or opened again, and an incident is resolved by the end of its task and by nothing
else. -/
theorem run_incidents (moves more : List EngineMove) (fresh : FreshMoves (moves ++ more)) :
    (∀ i ∈ (empty.run moves).incidents, i.resolved = false → ∃ record ∈ (empty.run moves).tasks,
      record.task.id = i.task ∧ record.task.instanceId = i.instanceId ∧ record.task.activity = i.activity) ∧
    (∀ task, ((empty.run moves).openIncidentsOf task).length ≤ 1) ∧
    (∀ record ∈ (empty.run moves).tasks, record.task.retries = some 0 →
      ∃ i, (empty.run moves).openIncidentsOf record.task.id = [i]) ∧
    ∃ raised, (empty.run (moves ++ more)).incidents =
        ((empty.run moves).incidents.map fun i =>
          { i with resolved := i.resolved || !((empty.run moves).endsOf i.task more).isEmpty }) ++ raised ∧
      ∀ i ∈ raised, i.resolved = true → (empty.run moves).endsOf i.task more ≠ [] := by
  have ledger := ledger_run fresh.left
  refine ⟨ledger.named, ledger.single, fun record member exhausted => ?_, ?_⟩
  · have some' := hasOpenIncident_iff.mp (ledger.stuck record member exhausted)
    have single := ledger.single record.task.id
    have some' := List.length_pos_iff.mpr some'
    exact List.length_eq_one_iff.mp (by omega)
  · obtain ⟨raised, incidents, new⟩ := goOn_run fresh
    exact ⟨raised, incidents, fun i member resolved => by simpa using new i member resolved⟩

/-- A task that ran out of retries, was granted some again and failed once more had one incident all the time,
which its late completion resolved. -/
theorem run_incidents_completed :
    let pay : Activity := ⟨"pay", .serviceTask, some "money", none⟩
    let moves : List EngineMove :=
      [.call .epoch ⟨"a", "a", "a", "a", "a"⟩ (.deploy ⟨"order", [pay]⟩),
        .call .epoch ⟨"b", "b", "b", "b", "b"⟩ (.start "order" none .empty),
        .call .epoch ⟨"c", "c", "c", "c", "c"⟩ (.lease ⟨1, "w", "money", .zero, .all, none⟩),
        .call .epoch ⟨"d", "d", "d", "d", "d"⟩ (.failure "b" "w" ⟨"gone", "", 0, .zero⟩),
        .call .epoch ⟨"e", "e", "e", "e", "e"⟩ (.failure "b" "w" ⟨"again", "", 2, .zero⟩),
        .call .epoch ⟨"f", "f", "f", "f", "f"⟩ (.failure "b" "w" ⟨"gone", "", 0, .zero⟩)]
    let more : List EngineMove := [.call .epoch ⟨"g", "g", "g", "g", "g"⟩ (.complete "b" "w" .empty)]
    let raised : Incident := ⟨"d", "b", "b", "pay", "gone", "", .epoch, false⟩
    (empty.run moves).incidents = [raised] ∧
      (∀ record ∈ (empty.run moves).tasks, record.task.retries = some 0 →
        ∃ i, (empty.run moves).openIncidentsOf record.task.id = [i]) ∧
      (empty.run moves).endsOf "b" more = [.completed .empty] ∧
      ∃ new, (empty.run (moves ++ more)).incidents =
        ((empty.run moves).incidents.map fun i =>
          { i with resolved := i.resolved || !((empty.run moves).endsOf i.task more).isEmpty }) ++ new := by
  refine ⟨?raised, (run_incidents _ [] (by decide)).2.2.1, ?ended, ?resolved⟩
  case raised => rfl
  case ended => rfl
  case resolved => exact (run_incidents _ _ (by decide)).2.2.2.imp fun _ found => found.1

end Engine

end TaskLeasing
