import TaskLeasing.Proofs.Engine.Incidents
import TaskLeasing.Proofs.System.Compensation

namespace TaskLeasing

/-- The record of a task whose response did not come in time: no one can lease it, and it is still the worker's. -/
structure TaskRecord.TimedOut (lease : LeasedTask) (worker : String) (record : TaskRecord) : Prop where
  exhausted : record.task.retries = some 0
  owner : record.task.worker = some worker
  definition : record.task.definitionKey = lease.definitionKey
  topic : record.task.topic = lease.topic

/-- A watchdog finds a task under the lock that it was armed for. -/
structure System.Guards (s : System) (watchdog : Watchdog) (record : TaskRecord) (current : Instant) : Prop where
  available : s.engine.available = true
  sound : s.engine.Sound none
  member : record ∈ s.engine.tasks
  own : record.task.id = watchdog.task
  locked : record.task.lockExpiry = some current
  owner : record.task.worker = some s.settings.workerId
  guarded : watchdog.guards current = true

/-- A task that is open and has no incident, in the hands of the worker of a dispatcher that can ask the engine. -/
structure System.Unanswered (s : System) (task worker : String) : Prop where
  available : s.engine.available = true
  worker : s.settings.workerId = worker
  isOpen : ∃ record ∈ s.engine.tasks, record.task.id = task
  clear : s.engine.hasOpenIncident task = false

/-- At any later time the worker's response to a task calls a processor, and what the processor returns completes the
task and resolves an incident, if the task is still open then and the completion is not made to fail. In the meantime
failures may be reported, if they leave no retries. -/
def System.StillAnswers (s : System) (task worker : String) (incident : Incident) : Prop :=
  ∀ (later during : List Move) (input value : Json) (vars : Variables),
    let r := s.run later
    let started := r.step (.respond task input)
    let u := started.2.run during
    r.engine.available = true → r.settings.workerId = worker → u.engine.available = true → task ∉ u.engine.refusals →
    (∃ record ∈ u.engine.tasks, record.task.id = task) →
    (∀ ask ∈ s.asksOf (later ++ .respond task input :: during), ∀ report ∈ ask.failure? task, report.retries = 0) →
      ∃ call, started.1 = .calling call ∧
        (u.calls.find? (fun other => other.number = call.number) = some call →
          let ended := u.step (.answer call.number .respond (.returned (value, vars)))
          ended.1 = .responded (.ok value) ∧ ended.2.engine.completionOf? task = some vars ∧
            (∀ record ∈ ended.2.engine.tasks, record.task.id ≠ task) ∧
            ended.2.engine.openIncidentsOf task = [] ∧
            { incident with resolved := true } ∈ ended.2.engine.incidents)

namespace TaskRecord

variable {lease : LeasedTask} {worker : String} {now : Instant} {ask : Asked} {old record : TaskRecord}

/-- A record stays as the lease left it while no failure of its task is reported and no one leases it. -/
theorem LeasedAs.becomes (leased : old.LeasedAs lease worker) (unfailed : ask.failure? old.task.id = none)
    (spared : ∀ other ∈ ask.leased, other.id ≠ old.task.id) (became : old.Becomes now ask record) :
    record.LeasedAs lease worker := by
  cases became with
  | kept => exact leased
  | leased _ _ _ member given => exact absurd (congrArg LeasedTask.id given) (spared _ member)
  | failed reported =>
    rw [unfailed] at reported
    cases reported

/-- A task without retries stays with its worker while failures leave it none. -/
theorem TimedOut.becomes (timedOut : old.TimedOut lease worker)
    (final : ∀ report ∈ ask.failure? old.task.id, report.retries = 0) (became : old.Becomes now ask record) :
    record.TimedOut lease worker := by
  cases became with
  | kept => exact timedOut
  | leased _ fits => exact absurd timedOut.exhausted (isLeasable_iff.mp fits).2.2.1
  | failed reported =>
    exact ⟨congrArg some (final _ reported), timedOut.owner, timedOut.definition, timedOut.topic⟩

end TaskRecord

namespace Engine

variable {e : Engine} {names : Naming}

/-- A failure that leaves no retries raises the one open incident of a task that had none. -/
theorem reportFailure_raises (available : e.available = true) {now expiry : Instant} {report : FailureReport}
    (accepted : deadline now report.delay = .ok expiry) {task worker : String} {record : TaskRecord}
    (owned : e.ownedRecord task worker = .ok record) (final : report.retries = 0)
    (clear : e.hasOpenIncident task = false) (fresh : String) :
    ∃ incident, (e.reportFailure now fresh task worker report).engine.openIncidentsOf task = [incident] ∧
      incident.message = report.message := by
  have none' : e.openIncidentsOf task = [] := by
    by_contra some'
    rw [hasOpenIncident_iff.mpr some'] at clear
    cases clear
  rw [reportFailure_eq available accepted owned, if_pos ⟨final, by simp [clear]⟩]
  refine ⟨⟨fresh, record.task.instanceId, task, record.task.activity, report.message, report.details, now, false⟩,
    ?_, rfl⟩
  have kept : (e.modifyRecord task fun r => r.fail report expiry).openIncidentsOf task = [] := none'
  refine (List.filter_append ..).trans ((congrArg (· ++ _) kept).trans ?_)
  simp

/-- An incident that was raised is there from then on, be it resolved or not. -/
theorem Orderly.incident_goesOn (orderly : e.Orderly names) (apart : names.Distinct) (now : Instant)
    {kind : AnswerKind} (operation : Operation kind) {incident : Incident}
    (raised : ∃ closed, incident.closeIf closed ∈ e.incidents) :
    ∃ closed, incident.closeIf closed ∈ (e.step now (names.next e) operation).engine.incidents := by
  obtain ⟨closed, member⟩ := raised
  have new : ∀ fresh, (EngineMove.call now (names.next e) operation).names? = some fresh → fresh.NewTo e := by
    rintro _ ⟨⟩
    exact orderly.newTo apart
  obtain ⟨_, later, _⟩ := goOn_take orderly.sound new
  change ∃ closed, incident.closeIf closed ∈ (e.take (.call now (names.next e) operation)).incidents
  rw [later]
  have again := List.mem_map_of_mem (f := fun i : Incident =>
    i.closeIf (endingOf? i.task e (.call now (names.next e) operation)).isSome) member
  rw [Incident.closeIf_closeIf] at again
  exact ⟨_, List.mem_append_left _ again⟩

/-- Where a task ends, its incidents are resolved: none of them is open, and none is lost. -/
theorem openIncidentsOf_resolved (e : Engine) (task : String) :
    (e.resolveIncidents task).openIncidentsOf task = [] := by
  refine List.filter_eq_nil_iff.mpr fun i member => ?_
  obtain ⟨old, _, rfl⟩ := List.mem_map.mp member
  by_cases own : old.task = task <;> simp [own]

theorem mem_resolveIncidents {incident : Incident} (raised : ∃ closed, incident.closeIf closed ∈ e.incidents) :
    { incident with resolved := true } ∈ (e.resolveIncidents incident.task).incidents := by
  obtain ⟨closed, member⟩ := raised
  exact List.mem_map.mpr ⟨_, member, if_pos rfl⟩

end Engine

namespace System

variable {s : System} {record : TaskRecord} {registration : Registration} {timeout : Option Span}
  {message : Option String} {watchdog : Watchdog} {current : Instant} {payload : String}

/-- An open task is found, which is only observed. -/
theorem ask_findTask_open (available : s.engine.available = true) (sound : s.engine.Sound none)
    (member : record ∈ s.engine.tasks) :
    ∃ note, s.ask (.findTask record.task.id) = (.ok (some record.task), s.note note) := by
  have found : s.engine.record? record.task.id = some record := find?_key sound.tasks_distinct member
  have looks : s.engine.findTask record.task.id = s.engine.answer (some record.task) := by
    simp only [Engine.findTask, available, not_true_eq_false, if_false, found, Option.map_some]
  refine ⟨.asked .task (.findTask record.task.id) (.ok (some record.task)), ?_⟩
  simp only [ask, call, Engine.step, looks, Engine.answer, List.foldl_nil]

/-- A response that is missing is reported with the message of the registration, or else with the worker's. -/
theorem timeoutMessage_registered {task : ExternalTask}
    (found : s.registry.lookup ⟨task.definitionKey, task.topic⟩ = some registration)
    (async : registration.contract = .async timeout message) :
    s.timeoutMessage task = message.getD s.settings.timeoutMessage := by
  unfold timeoutMessage
  simp only [found, Option.map_some, async]
  cases message <;> rfl

namespace Guards

variable (guards : s.Guards watchdog record current)
include guards

theorem stale (past : current ≤ s.now) :
    (s.checkWatchdog watchdog).1 = .ok .stale ∧ (s.checkWatchdog watchdog).2.engine = s.engine := by
  obtain ⟨note, found⟩ := ask_findTask_open guards.available guards.sound guards.member
  rw [guards.own] at found
  have isLocked : record.task.isLocked = true := by simp [ExternalTask.isLocked, guards.owner]
  have past : current ≤ (s.note note).now := past
  unfold checkWatchdog
  simp only [found, guards.locked, isLocked, Option.filter_some, if_true, guards.guarded, not_true_eq_false, if_false,
    past]
  exact ⟨trivial, rfl⟩

theorem fires (lasts : s.now < current) : (s.checkWatchdog watchdog).1 = .ok .fired ∧
    ∃ report : FailureReport, report.retries = 0 ∧ report.delay = .zero ∧
      report.message = s.timeoutMessage record.task ∧ (s.checkWatchdog watchdog).2.engine = (s.engine.reportFailure
        s.now (s.names.next s.engine).incident record.task.id s.settings.workerId report).engine := by
  obtain ⟨note, found⟩ := ask_findTask_open guards.available guards.sound guards.member
  rw [guards.own] at found
  have isLocked : record.task.isLocked = true := by simp [ExternalTask.isLocked, guards.owner]
  have lasts : ¬ current ≤ (s.note note).now := Instant.not_le.mpr lasts
  have owned := guards.sound.ownedRecord_eq guards.member guards.owner
  obtain ⟨expiry, within⟩ := deadline_zero s.now
  unfold checkWatchdog
  simp only [found, guards.locked, isLocked, Option.filter_some, if_true, guards.guarded, not_true_eq_false, if_false,
    lasts]
  generalize "No response received for external task " ++ record.task.id ++ " (activity " ++
    record.task.activity ++ ") while locked until " ++ watchdog.lockExpiry.display = details
  let report : FailureReport := .terminal ((s.note note).timeoutMessage record.task) details
  have accepted : ((s.note note).engine.step (s.note note).now ((s.note note).names.next (s.note note).engine)
      (.failure record.task.id (s.note note).settings.workerId report)).result = .ok () :=
    (Engine.reportFailure_accepted guards.available within owned _).1
  have reported := (does_ask (s.note note) (.failure record.task.id (s.note note).settings.workerId report)).engine.2
  rw [ask_eq accepted]
  exact ⟨rfl, report, rfl, rfl, rfl, reported⟩

end Guards

/-- A watchdog's payload is read, and what the check finds is the verdict. -/
theorem fireWatchdog_checked {verdict : Verdict} (read : Watchdog.ofPayload? payload = some watchdog)
    (checked : (s.checkWatchdog watchdog).1 = .ok verdict) : (s.fireWatchdog payload).1 = .ok verdict ∧
      (s.fireWatchdog payload).2.engine = (s.checkWatchdog watchdog).2.engine := by
  have split : s.checkWatchdog watchdog = (.ok verdict, (s.checkWatchdog watchdog).2) := Prod.ext checked rfl
  unfold fireWatchdog
  simp only [read]
  rw [split]
  exact ⟨rfl, rfl⟩

/-- A request that was sent in time of the engine schedules the watchdog of its lock. -/
theorem answer_arms {call : ProcessorCall} {number : Nat} {lease : LeasedTask} {named : Option Instant} {due : Instant}
    (pending : s.calls.find? (fun other => other.number = number) = some call) (subject : call.subject = .request lease)
    (async : call.registration.contract = .async timeout message) (available : s.engine.available = true)
    (dueAt : s.responseDue? timeout named = some due) :
    (s.step (.answer number .request (.returned named))).1 = .processed .awaitingResponse ∧
      ∃ job, Job.mk job due ⟨watchdogJobType, (Watchdog.mk lease.id lease.lockExpiry).payload⟩ false ∈
        (s.step (.answer number .request (.returned named))).2.engine.jobs := by
  let t := s.dropCall number
  have due' : t.responseDue? timeout named = some due := dueAt
  have stepped : s.step (.answer number .request (.returned named)) = _ :=
    endCall_request pending subject (.returned named)
  let payload : JobPayload := ⟨watchdogJobType, (Watchdog.mk lease.id lease.lockExpiry).payload⟩
  have scheduled : t.engine.step t.now (t.names.next t.engine) (.scheduleJob due payload) =
      (t.engine.addJob ⟨(t.names.next t.engine).job, due, payload, false⟩).answer (t.names.next t.engine).job := by
    have available : t.engine.available = true := available
    simp only [Engine.step, Engine.scheduleJob, available, not_true_eq_false, if_false]
  have armed : (t.armWatchdog lease timeout named).engine =
      t.engine.addJob ⟨(t.names.next t.engine).job, due, payload, false⟩ := by
    have asked := (t.does_ask (.scheduleJob due payload)).engine.2
    unfold armWatchdog
    simp only [due']
    rw [ask_eq (congrArg Reply.result scheduled)]
    exact asked.trans (congrArg Reply.engine scheduled)
  have ended : t.endRequest call lease (.returned named) =
      (t.armWatchdog lease timeout named).conclude lease .awaitingResponse := by
    simp only [endRequest, async, Attempt.result]
  rw [stepped, ended]
  refine ⟨rfl, (t.names.next t.engine).job, ?_⟩
  rw [(finishCall_rest _ call).1]
  change _ ∈ (t.armWatchdog lease timeout named).engine.jobs
  rw [armed]
  exact List.mem_append_right _ (List.mem_singleton_self _)

/-- A processor that was called for a leased task is the one of the task's key, and is found under it from then on. -/
theorem lookup_called (names : Naming) (now : Instant) (settings : Settings) (gated : Bool) (moves more : List Move)
    {call : ProcessorCall} {lease : LeasedTask} (member : call ∈ ((create names now settings gated).run moves).calls)
    (attempt : call.subject.attempt? = some lease) :
    (((create names now settings gated).run moves).run more).registry.lookup ⟨lease.definitionKey, lease.topic⟩ =
      some call.registration := by
  have key : call.registration.key = ⟨lease.definitionKey, lease.topic⟩ := by
    induction moves using List.reverseRecOn with
    | nil => cases member
    | append_singleton before move ih =>
      rw [run_append] at member
      rcases mem_calls_step (numbered_run (Host.numbered_idle _) before) member with old | new
      · exact ih old
      · rcases call?_cases new with ⟨other, own, found, _⟩ | ⟨_, _, _, _, subject, _⟩
        · obtain rfl := Option.some.inj (own.symm.trans attempt)
          exact Registry.lookup_key found
        · rw [subject] at attempt
          cases attempt
  let s := create names now settings gated
  have created : s.Sourced (s.LeasedIn []) := sourced_create names now settings gated
  have entry := (created.grows_run moves more).entries _ ((created.run moves).calls call member)
  rw [← run_append, ← key]
  exact (created.run _).distinct.lookup_mem entry

/-- A response to an open task that was leased calls the processor, if it is one for responses. -/
theorem respond_calls (available : s.engine.available = true) (sound : s.engine.Sound none)
    (member : record ∈ s.engine.tasks) {worker : String} (owner : record.task.worker = some worker)
    (found : s.registry.lookup ⟨record.task.definitionKey, record.task.topic⟩ = some registration)
    (async : registration.contract = .async timeout message) (input : Json) :
    ∃ call, (s.step (.respond record.task.id input)).1 = .calling call ∧ call.action = none ∧
      call.worker = s.settings.workerId ∧ call.subject = .respond record.task input := by
  obtain ⟨note, looked⟩ := ask_findTask_open available sound member
  have isLocked : record.task.isLocked = true := by simp [ExternalTask.isLocked, owner]
  have found : (s.note note).registry.lookup ⟨record.task.definitionKey, record.task.topic⟩ = some registration := found
  simp only [System.step, respond, looked, Option.filter_some, isLocked, if_true, found, async]
  exact ⟨_, rfl, rfl, rfl, rfl⟩

/-- What the processor of a response returns completes the task that it answers, unless the completion is made to
fail. -/
theorem answer_completes (orderly : s.engine.Orderly s.names) (apart : s.names.Distinct) {call : ProcessorCall}
    {task : ExternalTask} {input : Json} (pending : s.calls.find? (fun other => other.number = call.number) = some call)
    (subject : call.subject = .respond task input) (alone : call.action = none) (available : s.engine.available = true)
    (member : record ∈ s.engine.tasks) (own : record.task.id = task.id) (owner : record.task.worker = some call.worker)
    (willing : task.id ∉ s.engine.refusals) (value : Json) (vars : Variables) :
    let ended := s.step (.answer call.number .respond (.returned (value, vars)))
    ended.1 = .responded (.ok value) ∧ ended.2.engine.completionOf? task.id = some vars ∧
      (∀ record ∈ ended.2.engine.tasks, record.task.id ≠ task.id) ∧
      ended.2.engine.incidents = (s.engine.resolveIncidents task.id).incidents := by
  intro ended
  have stepped : ended = _ := endCall_respond pending subject (.returned (value, vars))
  rw [finishCall_alone _ alone] at stepped
  have owned := orderly.sound.ownedRecord_eq member owner
  rw [own] at owned
  have accepted := orderly.sound.complete_ok available owned willing (s.names.next s.engine).task vars
  have decided := orderly.sound.complete_decides (orderly.newTo apart).tasks task.id call.worker vars
  have responds := responds_endRespond (s := s.dropCall call.number) orderly apart call task (.returned (value, vars))
  rw [stepped]
  generalize ((s.dropCall call.number).endRespond call task (.returned (value, vars))).1 = result at responds ⊢
  generalize ((s.dropCall call.number).endRespond call task (.returned (value, vars))).2 = after at responds ⊢
  cases responds with
  | completed _ defers completion gone _ =>
    refine ⟨rfl, completion, gone, ?_⟩
    rcases decided with ⟨_, closes⟩ | ⟨refused, _⟩
    · exact (congrArg Engine.incidents defers.engine).trans closes.incidents
    · rw [accepted] at refused
      cases refused
  | compensated refused => cases accepted.symm.trans refused
  | failed failed => cases failed

/-- A task that was opened before and is open now was open all the time. -/
theorem open_before {task : String} (apart : s.names.Distinct) (orderly : s.engine.Orderly s.names)
    (issued : s.engine.Issued s.names task) {moves : List Move}
    (isOpen : ∃ record ∈ (s.run moves).engine.tasks, record.task.id = task) :
    ∃ record ∈ s.engine.tasks, record.task.id = task := by
  by_contra gone
  have never : s.engine.Keeps s.names task fun _ => False :=
    ⟨orderly, issued, fun record member id => gone ⟨record, member, id⟩⟩
  obtain ⟨record, member, id⟩ := isOpen
  exact (keeps_run apart never fun _ _ _ _ _ _ never _ => never).records record member id

/-- No incident is lost in the course of moves. -/
theorem incident_run {incident : Incident} (apart : s.names.Distinct) (orderly : s.engine.Orderly s.names)
    (raised : incident ∈ s.engine.incidents) (moves : List Move) :
    ∃ closed, incident.closeIf closed ∈ (s.run moves).engine.incidents := by
  have kept : (s.run moves).engine.Orderly s.names ∧
      ∃ closed, incident.closeIf closed ∈ (s.run moves).engine.incidents := by
    refine run_keeps (P := fun e => e.Orderly s.names ∧ ∃ closed, incident.closeIf closed ∈ e.incidents)
      ⟨orderly, false, ?_⟩ (fun _ _ holds => ⟨holds.1.of_eq rfl rfl rfl rfl, holds.2⟩)
      fun _ now holds ask _ _ =>
        ⟨holds.1.step apart now ask.operation, holds.1.incident_goesOn apart now ask.operation holds.2⟩
    rwa [Incident.closeIf_false]
  exact kept.2

/-- A task that timed out still takes the response of its worker. -/
theorem stillAnswers {lease : LeasedTask} {worker : String} {incident : Incident} (apart : s.names.Distinct)
    (keeps : s.engine.Keeps s.names lease.id (TaskRecord.TimedOut lease worker))
    (raised : incident ∈ s.engine.incidents) (own : incident.task = lease.id)
    (found : ∀ later, (s.run later).registry.lookup ⟨lease.definitionKey, lease.topic⟩ = some registration)
    (async : registration.contract = .async timeout message) : s.StillAnswers lease.id worker incident := by
  intro later during input value vars r started u available same available' willing isOpen final
  have timedOut {moves : List Move}
      (final : ∀ ask ∈ s.asksOf moves, ∀ report ∈ ask.failure? lease.id, report.retries = 0) :
      (s.run moves).engine.Keeps (s.run moves).names lease.id (TaskRecord.TimedOut lease worker) := by
    rw [names_run]
    exact keeps_run apart keeps fun _ ask among old record id holds became =>
      holds.becomes (id ▸ final ask among) became
  have distinct (moves : List Move) : (s.run moves).names.Distinct := (names_run s moves).symm ▸ apart
  have ran : s.run (later ++ .respond lease.id input :: during) = u := run_append s later _
  -- the task is open when the response comes, as it is when the processor ends
  have atResponse : r.engine.Keeps r.names lease.id (TaskRecord.TimedOut lease worker) := by
    refine timedOut fun ask among => final ask ?_
    rw [asksOf_append]
    exact List.mem_append_left _ among
  have atEnd : u.engine.Keeps u.names lease.id (TaskRecord.TimedOut lease worker) := by
    rw [← ran]
    exact timedOut final
  have stayed : ∃ record ∈ (r.run (.respond lease.id input :: during)).engine.tasks, record.task.id = lease.id :=
    isOpen
  obtain ⟨asked, atAsked, idAsked⟩ := open_before (distinct later) atResponse.orderly atResponse.issued stayed
  obtain ⟨ended, atEnded, idEnded⟩ := isOpen
  have before := atResponse.records asked atAsked idAsked
  have after := atEnd.records ended atEnded idEnded
  have key : r.registry.lookup ⟨asked.task.definitionKey, asked.task.topic⟩ = some registration := by
    rw [before.definition, before.topic]
    exact found later
  obtain ⟨call, calling, alone, called, subject⟩ :=
    respond_calls available atResponse.orderly.sound atAsked before.owner key async input
  rw [idAsked] at calling
  refine ⟨call, calling, fun pending => ?_⟩
  have apart' : u.names.Distinct := ran ▸ distinct (later ++ .respond lease.id input :: during)
  have owner : ended.task.worker = some call.worker := by rw [after.owner, called, same]
  obtain ⟨answered, completion, gone, incidents⟩ := answer_completes atEnd.orderly apart' pending subject alone
    available' atEnded (idEnded.trans idAsked.symm) owner (idAsked.symm ▸ willing) value vars
  rw [idAsked] at completion gone incidents
  have kept : ∃ closed, incident.closeIf closed ∈ u.engine.incidents := ran ▸ incident_run apart keeps.orderly raised _
  refine ⟨answered, completion, gone, ?_, ?_⟩
  · unfold Engine.openIncidentsOf
    rw [incidents]
    exact Engine.openIncidentsOf_resolved u.engine lease.id
  · rw [incidents, ← own]
    exact Engine.mem_resolveIncidents kept

/-- A move that runs a watchdog does nothing to tasks and incidents besides. -/
theorem watched_rest {firing : Move} (watched : s.watched? firing = some payload) :
    (s.step firing).2.engine.tasks = (s.fireWatchdog payload).2.engine.tasks ∧
      (s.step firing).2.engine.incidents = (s.fireWatchdog payload).2.engine.incidents := by
  rcases step_watched watched with same | ⟨job, same⟩ <;> rw [same] <;> exact ⟨rfl, rfl⟩

section Watched

variable {lease : LeasedTask} {worker : String} (within : lease.lockExpiry ≤ .last)
  (keeps : s.engine.Keeps s.names lease.id (TaskRecord.LeasedAs lease worker))
  (unanswered : s.Unanswered lease.id worker)
include within keeps unanswered

/-- While nothing was told of a lease, its watchdog finds the lock that it was armed for. -/
theorem Unanswered.guards : ∃ record, record.LeasedAs lease worker ∧
    s.Guards ⟨lease.id, lease.lockExpiry.truncate⟩ record lease.lockExpiry := by
  obtain ⟨record, member, id⟩ := unanswered.isOpen
  have leased := keeps.records record member id
  have guarded : (Watchdog.mk lease.id lease.lockExpiry.truncate).guards lease.lockExpiry = true :=
    decide_eq_true (Instant.truncate_millis within).symm
  exact ⟨record, leased, unanswered.available, keeps.orderly.sound, member, id, leased.locked,
    unanswered.worker ▸ leased.owner, guarded⟩

/-- Once the lock is over its watchdog leaves the engine alone. -/
theorem Unanswered.stale (named : lease.id ≠ "") (past : lease.lockExpiry ≤ s.now) :
    (s.fireWatchdog (Watchdog.mk lease.id lease.lockExpiry).payload).1 = .ok .stale ∧
      (s.fireWatchdog (Watchdog.mk lease.id lease.lockExpiry).payload).2.engine = s.engine := by
  obtain ⟨record, _, guards⟩ := unanswered.guards within keeps
  obtain ⟨verdict, engine⟩ := guards.stale past
  obtain ⟨checked, same⟩ := fireWatchdog_checked (Watchdog.ofPayload?_payload_within named within) verdict
  exact ⟨checked, same.trans engine⟩

/-- While the lock lasts its watchdog fires: the task stays open, with one open incident. -/
theorem Unanswered.strikes (named : lease.id ≠ "") (lasts : s.now < lease.lockExpiry) {firing : Move}
    (watched : s.watched? firing = some (Watchdog.mk lease.id lease.lockExpiry).payload) :
    (s.fireWatchdog (Watchdog.mk lease.id lease.lockExpiry).payload).1 = .ok .fired ∧
      (∃ struck ∈ (s.step firing).2.engine.tasks, struck.task.id = lease.id) ∧
      ∃ (record : TaskRecord) (incident : Incident), record.LeasedAs lease worker ∧
        (s.step firing).2.engine.openIncidentsOf lease.id = [incident] ∧
        incident.message = s.timeoutMessage record.task := by
  obtain ⟨record, leased, guards⟩ := unanswered.guards within keeps
  obtain ⟨verdict, report, final, undelayed, text, engine⟩ := guards.fires lasts
  obtain ⟨fired, same⟩ := fireWatchdog_checked (Watchdog.ofPayload?_payload_within named within) verdict
  have id : record.task.id = lease.id := guards.own
  have owned := guards.sound.ownedRecord_eq guards.member guards.owner
  obtain ⟨expiry, accepted⟩ : ∃ expiry, deadline s.now report.delay = .ok expiry := undelayed ▸ deadline_zero s.now
  -- what the failure leaves, whether or not the watchdog was run by a job
  obtain ⟨tasks, incidents⟩ := watched_rest watched
  rw [same.trans engine] at tasks incidents
  rw [Engine.reportFailure_tasks guards.available accepted owned] at tasks
  obtain ⟨incident, single, raised⟩ := Engine.reportFailure_raises guards.available accepted owned final
    (id ▸ unanswered.clear) (s.names.next s.engine).incident
  refine ⟨fired, ⟨record.fail report expiry, ?_, id⟩, record, incident, leased, ?_, raised.trans text⟩
  · rw [tasks]
    exact List.mem_map.mpr ⟨record, guards.member, if_pos rfl⟩
  · rw [← id, ← single]
    unfold Engine.openIncidentsOf
    rw [incidents]

/-- A task whose watchdog has fired stays with its worker, whose response it still takes. -/
theorem Unanswered.fires (named : lease.id ≠ "") (apart : s.names.Distinct)
    (found : ∀ later, (s.run later).registry.lookup ⟨lease.definitionKey, lease.topic⟩ = some registration)
    (async : registration.contract = .async timeout message) (lasts : s.now < lease.lockExpiry) {firing : Move}
    (watched : s.watched? firing = some (Watchdog.mk lease.id lease.lockExpiry).payload) :
    (s.fireWatchdog (Watchdog.mk lease.id lease.lockExpiry).payload).1 = .ok .fired ∧
      ∃ incident, (s.step firing).2.engine.openIncidentsOf lease.id = [incident] ∧
        incident.message = message.getD s.settings.timeoutMessage ∧
        (∃ record, (s.step firing).2.engine.ownedRecord lease.id worker = .ok record) ∧
        (s.step firing).2.StillAnswers lease.id worker incident := by
  obtain ⟨fired, ⟨struck, isOpen, id⟩, record, incident, leased, only, text⟩ :=
    unanswered.strikes within keeps named lasts watched
  have fires : s.Fires firing (Watchdog.mk lease.id lease.lockExpiry).payload := ⟨watched, fired⟩
  have spent : (s.step firing).2.engine.Keeps (s.step firing).2.names lease.id (TaskRecord.TimedOut lease worker) := by
    rw [(s.turns_step firing).names]
    exact fires.strikes apart keeps fun old report bound leased final _ =>
      ⟨congrArg some final, leased.owner, congrArg LeasedTask.definitionKey leased.given,
        congrArg LeasedTask.topic leased.given⟩
  have owned := spent.orderly.sound.ownedRecord_eq isOpen (spent.records struck isOpen id).owner
  have key : s.registry.lookup ⟨record.task.definitionKey, record.task.topic⟩ = some registration := by
    have registered := found []
    rw [← leased.given] at registered
    exact registered
  have among : incident ∈ (s.step firing).2.engine.openIncidentsOf lease.id := only ▸ List.mem_singleton_self _
  obtain ⟨member, own⟩ := List.mem_filter.mp among
  refine ⟨fired, incident, only, ?_, ⟨_, id ▸ owned⟩, ?_⟩
  · rw [text, timeoutMessage_registered key async]
  · exact stillAnswers ((s.turns_step firing).names.symm ▸ apart) spent member (of_decide_eq_true own).1
      (fun later => found (firing :: later)) async

end Watched

/-- A response that is missing is seen to. Once the request of a lease was sent, with a time for the response, the
lease's watchdog is scheduled for that time. Whenever it runs, if the task is open without an incident, and since the
lease no failure of it was reported and no one was given it anew: as long as the lock lasts it fires, and the task has
one open incident, with the message of its registration or else the worker's, stays with its worker and still takes
the worker's response; later on it is stale, and the engine is left alone. A payload does not name a task without a
name. -/
theorem run_times_out (names : Naming) (now : Instant) (settings : Settings) (gated : Bool)
    (before sending waiting : List Move) (granting firing : Move) (distinct : names.Distinct) {ask : Asked}
    {request : LeaseRequest} {lease : LeasedTask} {call : ProcessorCall} {timeout : Option Span}
    {message : Option String} {named : Option Instant} {due : Instant} :
    let s := (create names now settings gated).run before
    let since := (s.step granting).2
    let sent := since.run sending
    let arming := Move.answer call.number .request (.returned named)
    let armed := sent.step arming
    let t := armed.2.run waiting
    let payload := (Watchdog.mk lease.id lease.lockExpiry).payload
    let fired := (t.step firing).2
    ask ∈ s.asksIn granting → ask.request? = some request → lease ∈ ask.leased → lease.id ≠ "" →
    sent.calls.find? (fun other => other.number = call.number) = some call → call.subject = .request lease →
    call.registration.contract = .async timeout message → sent.engine.available = true →
    sent.responseDue? timeout named = some due →
      armed.1 = .processed .awaitingResponse ∧
      (∃ job, Job.mk job due ⟨watchdogJobType, payload⟩ false ∈ armed.2.engine.jobs) ∧
      ((∀ ask ∈ since.asksOf (sending ++ arming :: waiting),
          ask.failure? lease.id = none ∧ ∀ other ∈ ask.leased, other.id ≠ lease.id) →
        t.Unanswered lease.id request.worker → t.watched? firing = some payload →
          (t.now < lease.lockExpiry →
            (t.fireWatchdog payload).1 = .ok .fired ∧
            ∃ incident, fired.engine.openIncidentsOf lease.id = [incident] ∧
              incident.message = message.getD t.settings.timeoutMessage ∧
              (∃ record, fired.engine.ownedRecord lease.id request.worker = .ok record) ∧
              fired.StillAnswers lease.id request.worker incident) ∧
          (lease.lockExpiry ≤ t.now →
            (t.fireWatchdog payload).1 = .ok .stale ∧ (t.fireWatchdog payload).2.engine = t.engine)) := by
  intro s since sent arming armed t payload fired asked requested member title pending subject async available dueAt
  obtain ⟨armed', scheduled⟩ := answer_arms pending subject async available dueAt
  refine ⟨armed', scheduled, fun untold unanswered watched => ?_⟩
  obtain ⟨apart, orderly⟩ : s.names.Distinct ∧ s.engine.Orderly s.names :=
    in_order_created distinct now settings gated before
  obtain ⟨request', requested', accepted, granted⟩ := leased_granted apart orderly asked member
  have within := Instant.le_last (deadline_ordinary s.ordinary accepted)
  obtain rfl : request = request' := Option.some.inj (requested.symm.trans requested')
  have since_names : since.names = s.names := (s.turns_step granting).names
  rw [← since_names] at apart granted
  have ran : since.run (sending ++ arming :: waiting) = t := run_append since sending _
  have t_names : t.names = since.names := ran ▸ names_run since _
  have keeps : t.engine.Keeps t.names lease.id (TaskRecord.LeasedAs lease request.worker) := by
    rw [t_names, ← ran]
    exact keeps_run apart granted fun _ ask among old record id leased became =>
      leased.becomes (id ▸ (untold ask among).1) (id ▸ (untold ask among).2) became
  have found (later : List Move) :
      (t.run later).registry.lookup ⟨lease.definitionKey, lease.topic⟩ = some call.registration := by
    have reached : (create names now settings gated).run (before ++ granting :: sending) = sent := run_append _ before _
    have called : call ∈ ((create names now settings gated).run (before ++ granting :: sending)).calls := by
      rw [reached]
      exact List.mem_of_find?_eq_some pending
    have attempt : call.subject.attempt? = some lease := by rw [subject]; rfl
    have registered := lookup_called names now settings gated _ (arming :: waiting ++ later) called attempt
    rw [reached, run_append] at registered
    exact registered
  refine ⟨fun lasts => ?_, fun past => unanswered.stale within keeps title past⟩
  exact unanswered.fires within keeps title (t_names ▸ apart) found async lasts watched

/-- A dispatcher that is about to lease its one task, whose response is to come within twenty seconds. -/
def timedTask : List Move :=
  [.attach, .register "order" "money" none .all (.async (some (.ofSeconds 20)) (some "no answer")),
    .operate .done (.deploy ⟨"order", [⟨"pay", .serviceTask, some "money", none⟩]⟩),
    .operate .name (.start "order" none .empty), .start 0]

def timedCall : ProcessorCall :=
  ⟨1, some 3, ⟨⟨"order", "money"⟩, none, .all, .async (some (.ofSeconds 20)) (some "no answer")⟩, "w",
    .request leasedTask⟩

/-- The request was sent, and the response is due. -/
def responseDue : System :=
  (create unaryNames .epoch (Settings.defaults "w") false).run
    (timedTask ++ [.start 1, .start 2, .start 3, .answer 1 .request (.returned none), .passTo (secondsOn 20)])

def responseMissed : System := (responseDue.step (.runJob "j")).2

def lateCall : ProcessorCall :=
  ⟨2, none, timedCall.registration, "w", .respond ⟨"t", "order", "money", "i", none, "pay", "x", some "w",
    some (secondsOn 20), some 0, some "no answer"⟩ .null⟩

/-- The job runs when the response is due. The response comes when the lock is long over, and completes the task. -/
theorem run_times_out_answered :
    ∃ incident, responseMissed.engine.openIncidentsOf "t" = [incident] ∧ incident.message = "no answer" ∧
      let started := (responseMissed.run [.passTo (secondsOn 90)]).step (.respond "t" .null)
      let ended := ((started.2.run [.passTo (secondsOn 91)]).step
        (.answer 2 .respond (.returned (.bool true, .empty)))).2
      ended.engine.completionOf? "t" = some .empty ∧ { incident with resolved := true } ∈ ended.engine.incidents := by
  obtain ⟨_, _, law⟩ := @run_times_out unaryNames .epoch (Settings.defaults "w") false timedTask [.start 2, .start 3]
    [.passTo (secondsOn 20)] (.start 1) (.runJob "j") unaryNames_distinct _ _ leasedTask timedCall _ _ none
    (secondsOn 20) (List.mem_singleton_self _) rfl (List.mem_singleton_self _) (by decide) rfl rfl rfl rfl rfl
  have unanswered : responseDue.Unanswered "t" "w" := ⟨rfl, rfl, ⟨_, List.mem_singleton_self _, rfl⟩, rfl⟩
  obtain ⟨_, incident, single, message, _, answers⟩ := (law (by decide) unanswered rfl).1 (by decide)
  have answers : responseMissed.StillAnswers "t" "w" incident := answers
  obtain ⟨call, calling, completes⟩ := answers [.passTo (secondsOn 90)] [.passTo (secondsOn 91)] .null (.bool true)
    .empty rfl rfl rfl (by decide) ⟨_, List.mem_singleton_self _, rfl⟩ (by decide)
  have called : ((responseMissed.run [.passTo (secondsOn 90)]).step (.respond "t" .null)).1 = .calling lateCall := rfl
  obtain rfl : call = lateCall := Consequence.calling.inj (calling.symm.trans called)
  obtain ⟨_, completion, _, _, resolved⟩ := completes rfl
  exact ⟨incident, single, message, completion, resolved⟩

end System

end TaskLeasing
