import TaskLeasing.Proofs.Engine.Deadlines
import TaskLeasing.Proofs.Engine.Instances
import TaskLeasing.Proofs.Retry
import TaskLeasing.Proofs.System.Duties

namespace TaskLeasing

/-- What an attempt at a task comes to: its outcome, the one call by which the engine is told of it, and
the wait after which its registration leases again. -/
structure Settlement where
  outcome : Outcome
  told : Option (Σ kind, Operation kind)
  again : Option Span

/-- The decision on a retryable failure of a task, with the worker's wait where the failure names none. -/
def LeasedTask.decision (task : LeasedTask) (wait : Span) (failure : RetryableFailure) : RetryDecision :=
  nextRetry failure.maxAttempts task.retries (if failure.delays.isEmpty then [wait] else failure.delays)

/-- The report of a retryable failure, once it is decided what follows it. -/
def RetryableFailure.report (failure : RetryableFailure) (decision : RetryDecision) : FailureReport :=
  ⟨failure.message, (ProcessorError.retryable failure).incidentDetails, decision.retriesLeft, decision.delay⟩

/-- What an error of a task's processor comes to. -/
def LeasedTask.settleError (task : LeasedTask) (worker : String) (wait : Span) :
    ProcessorError → Settlement
  | .business error =>
    ⟨.businessError, some ⟨.done, .businessError task.id worker error.code error.message error.vars⟩, none⟩
  | .retryable failure =>
    let decision := task.decision wait failure
    if 0 < decision.retriesLeft then
      ⟨.retryScheduled, some ⟨.done, .failure task.id worker (failure.report decision)⟩, some decision.delay⟩
    else
      ⟨.incident, some ⟨.done, .failure task.id worker
        (.terminal failure.message (ProcessorError.retryable failure).incidentDetails)⟩, none⟩
  | .failure chain =>
    ⟨.incident, some ⟨.done, .failure task.id worker
      (.terminal chain.error (ProcessorError.failure chain).incidentDetails)⟩, none⟩

/-- What the end of an attempt comes to. A panic is an error like others. -/
def LeasedTask.settle {α : Type} (task : LeasedTask) (worker : String) (wait : Span)
    (returned : α → Settlement) : Attempt α → Settlement
  | .returned value => returned value
  | .failed error => task.settleError worker wait error
  | .panicked reason => task.settleError worker wait (.plain ("Processor panicked: " ++ reason))

/-- A task whose processor returns its variables is completed with them. -/
def LeasedTask.completes (task : LeasedTask) (worker : String) (vars : Variables) : Settlement :=
  ⟨.completed, some ⟨.done, .complete task.id worker vars⟩, none⟩

/-- A task whose request was sent waits for its response, watched over if the response is due at some
time. -/
def LeasedTask.awaits (task : LeasedTask) (due : Option Instant) : Settlement :=
  ⟨.awaitingResponse, due.map fun due => ⟨.name, .scheduleJob due
    ⟨watchdogJobType, (Watchdog.mk task.id task.lockExpiry).payload⟩⟩, none⟩

/-- The kind of call that an attempt under a contract is. -/
def Contract.attempts : Contract → CallKind
  | .sync => .process
  | .async .. => .request

/-- What the end of an attempt at a task comes to, under a contract. -/
def System.settlement (s : System) (task : LeasedTask) (worker : String) :
    (contract : Contract) → Attempt contract.attempts.Value → Settlement
  | .sync, attempt => task.settle worker s.settings.retryDelay (task.completes worker) attempt
  | .async timeout _, attempt =>
    task.settle worker s.settings.retryDelay (fun named => task.awaits (s.responseDue? timeout named)) attempt

/-- The call that a registration's processor is given for a task. -/
def System.attemptAt (s : System) (action : Option Nat) (registration : Registration) (task : LeasedTask) :
    ProcessorCall where
  number := s.callCount + 1
  action := action
  registration := registration
  worker := s.settings.workerId
  subject := match registration.contract with
    | .sync => .process task
    | .async .. => .request task

/-- A system has settled an attempt: the engine is as its one call leaves it, which was accepted; the lease
after the wait is deferred, and else only leases for what the instance came to, if it went on; and an
incident that the outcome tells of is open. -/
structure System.Settles (s : System) (registration : Registration) (task : String) (settlement : Settlement)
    (outcome : Outcome) (after : System) : Prop where
  outcome : outcome = settlement.outcome
  engine : match settlement.told with
    | none => after.engine = s.engine
    | some ⟨_, operation⟩ =>
      (∃ value, (s.engine.step s.now (s.names.next s.engine) operation).result = .ok value) ∧
        after.engine = (s.engine.step s.now (s.names.next s.engine) operation).engine
  deferred : ∃ leases : List Registration,
    (settlement.outcome = .completed ∨ settlement.outcome = .businessError ∨ leases = []) ∧ after.deferred =
      s.deferred ++ leases.map .deferLease ++ settlement.again.toList.map (.deferRetry registration)
  delayed : after.host.delayed = s.host.delayed
  incident : settlement.outcome = .incident → after.engine.hasOpenIncident task = true

namespace System

variable {s : System} {registration : Registration} {task : LeasedTask} {worker : String} {record : TaskRecord}

theorem Settles.then {settlement : Settlement} {outcome : Outcome} {middle after : System} {task : String}
    (settles : s.Settles registration task settlement outcome middle) (engine : after.engine = middle.engine)
    (deferred : after.deferred = middle.deferred) (delayed : after.host.delayed = middle.host.delayed) :
    s.Settles registration task settlement outcome after where
  outcome := settles.outcome
  engine := by rw [engine]; exact settles.engine
  deferred := by rw [deferred]; exact settles.deferred
  delayed := delayed.trans settles.delayed
  incident := by rw [engine]; exact settles.incident

/-- Deferring the next lease is all that is left to do for a retry. -/
theorem Settles.again {outcome : Outcome} {told : Option (Σ kind, Operation kind)} {middle : System}
    {id : String} (settles : s.Settles registration id ⟨outcome, told, none⟩ outcome middle) (label : String)
    (delay : Span) : s.Settles registration id ⟨outcome, told, some delay⟩ outcome
      (middle.afterCommit label (.deferRetry registration delay)) := by
  have later := defers_afterCommit middle label (.deferRetry registration delay)
  refine ⟨rfl, ?_, ?_, later.delayed.trans settles.delayed, ?_⟩
  · rw [later.engine]
    exact settles.engine
  · obtain ⟨leases, goesOn, deferred⟩ := settles.deferred
    refine ⟨leases, goesOn, ?_⟩
    rw [later.deferred, deferred]
    simp
  · rw [later.engine]
    exact settles.incident

/-- A call that is accepted settles an attempt when nothing else is left to be done. -/
theorem settles_ask {kind : AnswerKind} (operation : Operation kind)
    (quiet : ∀ now result, (JournalEntry.mk now (.asked kind operation result)).leased = [])
    {outcome : Outcome} {task : String} {value : kind.Value}
    (accepted : (s.engine.step s.now (s.names.next s.engine) operation).result = .ok value)
    (goesOn : outcome = .completed ∨ outcome = .businessError ∨
      (s.engine.step s.now (s.names.next s.engine) operation).started = [])
    (incident : outcome = .incident →
      (s.engine.step s.now (s.names.next s.engine) operation).engine.hasOpenIncident task = true) :
    s.Settles registration task ⟨outcome, some ⟨kind, operation⟩, none⟩ outcome (s.ask operation).2 := by
  obtain ⟨leases, answers⟩ := s.answers_ask operation quiet
  have engine : (s.ask operation).2.engine =
      (s.engine.step s.now (s.names.next s.engine) operation).engine := answers.defers.engine
  refine ⟨rfl, ⟨⟨value, accepted⟩, engine⟩, ⟨leases, ?_, ?_⟩, answers.defers.delayed, ?_⟩
  · exact goesOn.imp_right (Or.imp_right answers.silent)
  · simp only [Option.toList_none, List.map_nil, List.append_nil]
    exact answers.defers.deferred
  · rw [engine]
    exact incident

theorem settles_conclude {settlement : Settlement} {outcome : Outcome} {middle : System} {id : String}
    (settles : s.Settles registration id settlement outcome middle) (task : LeasedTask) :
    s.Settles registration id settlement (middle.conclude task outcome).1 (middle.conclude task outcome).2 := by
  have concluded : middle.Defers (middle.conclude task outcome).2 [] :=
    (middle.defers_count (middle.counters.countOutcome outcome)).trans (defers_log _ _)
  refine settles.then concluded.engine ?_ concluded.delayed
  rw [concluded.deferred, List.append_nil]

/-- The report of a failure by the worker that owns the task is accepted, if its delay is. -/
theorem failure_accepted (available : s.engine.available = true)
    (owned : s.engine.ownedRecord task.id worker = .ok record) (report : FailureReport)
    (accepted : ∃ expiry, deadline s.now report.delay = .ok expiry) :
    (s.engine.step s.now (s.names.next s.engine) (.failure task.id worker report)).result = .ok () ∧
      (s.engine.step s.now (s.names.next s.engine) (.failure task.id worker report)).started = [] ∧
      (report.retries = 0 →
        (s.engine.step s.now (s.names.next s.engine) (.failure task.id worker report)).engine.hasOpenIncident
          task.id = true) := by
  obtain ⟨expiry, accepted⟩ := accepted
  exact Engine.reportFailure_accepted available accepted owned _

theorem report_accepted {task worker : String} {report : FailureReport}
    (accepted : (s.engine.step s.now (s.names.next s.engine) (.failure task worker report)).result = .ok ()) :
    s.report task worker report = (true, (s.ask (.failure task worker report)).2) := by
  unfold System.report
  rw [ask_eq accepted]

theorem settles_raiseIncident (available : s.engine.available = true)
    (owned : s.engine.ownedRecord task.id worker = .ok record) (message details : String) :
    s.Settles registration task.id ⟨.incident, some ⟨.done, .failure task.id worker (.terminal message details)⟩,
      none⟩ .incident (s.raiseIncident task.id worker message details) := by
  obtain ⟨accepted, silent, incident⟩ :=
    failure_accepted available owned (.terminal message details) (deadline_zero s.now)
  unfold raiseIncident
  rw [report_accepted accepted]
  exact settles_ask _ (fun _ _ => rfl) accepted (.inr (.inr silent)) fun _ => incident rfl

/-- An error of a processor is settled as the table has it. -/
theorem settles_settleError (registration : Registration) (sound : s.engine.Sound none)
    (available : s.engine.available = true) (owned : s.engine.ownedRecord task.id worker = .ok record)
    (error : ProcessorError) (wait : ∀ failure, error = .retryable failure →
      ∃ expiry, deadline s.now (task.decision s.settings.retryDelay failure).delay = .ok expiry) :
    s.Settles registration task.id (task.settleError worker s.settings.retryDelay error)
      (s.settleError task registration worker error).1 (s.settleError task registration worker error).2 := by
  cases error with
  | business error =>
    have accepted : (s.engine.step s.now (s.names.next s.engine) (.businessError task.id worker error.code
        error.message error.vars)).result = .ok () := sound.raiseBusinessError_ok available owned _ _ _
    unfold System.settleError
    simp only
    rw [ask_eq accepted]
    exact settles_ask _ (fun _ _ => rfl) accepted (.inr (.inl rfl)) fun incident => by cases incident
  | failure chain => exact settles_raiseIncident available owned _ _
  | retryable failure =>
    obtain ⟨decision, same⟩ : ∃ decision, task.decision s.settings.retryDelay failure = decision := ⟨_, rfl⟩
    obtain ⟨accepted, silent, incident⟩ := failure_accepted available owned (failure.report decision)
      (same ▸ wait failure rfl)
    have row : task.settleError worker s.settings.retryDelay (.retryable failure) =
        if 0 < decision.retriesLeft then
          ⟨.retryScheduled, some ⟨.done, .failure task.id worker (failure.report decision)⟩, some decision.delay⟩
        else ⟨.incident, some ⟨.done, .failure task.id worker
          (.terminal failure.message (ProcessorError.retryable failure).incidentDetails)⟩, none⟩ := same ▸ rfl
    have settled : s.settleError task registration worker (.retryable failure) =
        if 0 < decision.retriesLeft then
          (.retryScheduled, (s.ask (.failure task.id worker (failure.report decision))).2.afterCommit
            "retry" (.deferRetry registration decision.delay))
        else (.incident, (s.ask (.failure task.id worker (failure.report decision))).2) := by
      have decided : nextRetry failure.maxAttempts task.retries (s.backoff failure) = decision := same
      have reported := report_accepted accepted
      unfold RetryableFailure.report at reported ⊢
      simp only [System.settleError, decided, reported, RetryDecision.willRetry, decide_eq_true_eq]
    rw [row, settled]
    by_cases again : 0 < decision.retriesLeft
    · rw [if_pos again, if_pos again]
      refine Settles.again ?_ "retry" decision.delay
      exact settles_ask _ (fun _ _ => rfl) accepted (.inr (.inr silent)) fun incident => by cases incident
    · rw [if_neg again, if_neg again]
      -- without retries left there is no wait, so the report is a terminal one
      have exhausted : decision.retriesLeft = 0 := by simpa using again
      have noWait : decision.delay = .zero := by
        rw [← same] at exhausted ⊢
        exact nextRetry_exhausted exhausted
      have terminal : failure.report decision =
          .terminal failure.message (ProcessorError.retryable failure).incidentDetails := by
        simp only [RetryableFailure.report, FailureReport.terminal, exhausted, noWait]
      rw [terminal] at accepted silent incident ⊢
      exact settles_ask _ (fun _ _ => rfl) accepted (.inr (.inr silent)) fun _ => incident rfl

/-- The errors and panics of an attempt are settled alike, whatever its processor was to return. -/
theorem settles_failed {α : Type} (registration : Registration) (sound : s.engine.Sound none)
    (available : s.engine.available = true) (owned : s.engine.ownedRecord task.id worker = .ok record)
    (returned : α → Settlement) {attempt : Attempt α} {error : ProcessorError} (failed : attempt.result = .error error)
    (wait : ∀ failure, attempt.result = .error (.retryable failure) →
      ∃ expiry, deadline s.now (task.decision s.settings.retryDelay failure).delay = .ok expiry) :
    s.Settles registration task.id (task.settle worker s.settings.retryDelay returned attempt)
      (s.settleError task registration worker error).1 (s.settleError task registration worker error).2 := by
  have settles := settles_settleError registration sound available owned error fun failure same =>
    wait failure (same ▸ failed)
  cases attempt with
  | returned value => cases failed
  | failed own =>
    cases failed
    exact settles
  | panicked reason =>
    cases failed
    exact settles

theorem settles_endProcess (s : System) (call : ProcessorCall) (sound : s.engine.Sound none)
    (available : s.engine.available = true) (owned : s.engine.ownedRecord task.id call.worker = .ok record)
    (unrefused : task.id ∉ s.engine.refusals) (attempt : Attempt Variables)
    (wait : ∀ failure, attempt.result = .error (.retryable failure) →
      ∃ expiry, deadline s.now (task.decision s.settings.retryDelay failure).delay = .ok expiry) :
    s.Settles call.registration task.id
      (task.settle call.worker s.settings.retryDelay (task.completes call.worker) attempt)
      (s.endProcess call task attempt).1 (s.endProcess call task attempt).2 := by
  unfold endProcess
  refine settles_conclude ?_ task
  cases result : attempt.result with
  | error error => exact settles_failed call.registration sound available owned _ result wait
  | ok vars =>
    cases attempt with
    | failed error => cases result
    | panicked reason => cases result
    | returned value =>
      cases result
      have accepted : (s.engine.step s.now (s.names.next s.engine) (.complete task.id call.worker vars)).result =
          .ok () := sound.complete_ok available owned unrefused _ vars
      simp only
      rw [ask_eq accepted]
      exact settles_ask _ (fun _ _ => rfl) accepted (.inl rfl) fun incident => by cases incident

/-- A watchdog is a job of the engine; without a time that the response is due at there is none. -/
theorem settles_armWatchdog (available : s.engine.available = true) (timeout : Option Span)
    (named : Option Instant) :
    s.Settles registration task.id (task.awaits (s.responseDue? timeout named)) .awaitingResponse
      (s.armWatchdog task timeout named) := by
  unfold armWatchdog
  cases s.responseDue? timeout named with
  | none =>
    exact ⟨rfl, rfl, ⟨[], .inr (.inr rfl), by simp [LeasedTask.awaits]⟩, rfl, fun incident => by cases incident⟩
  | some due =>
    have accepted : (s.engine.step s.now (s.names.next s.engine) (.scheduleJob due
        ⟨watchdogJobType, (Watchdog.mk task.id task.lockExpiry).payload⟩)).result =
          .ok (s.names.next s.engine).job := by
      simp [Engine.step, Engine.scheduleJob, available, Engine.answer]
    have silent : (s.engine.step s.now (s.names.next s.engine) (.scheduleJob due
        ⟨watchdogJobType, (Watchdog.mk task.id task.lockExpiry).payload⟩)).started = [] := by
      simp [Engine.step, Engine.scheduleJob, available, Engine.answer]
    simp only
    rw [ask_eq accepted]
    have noted := defers_note (s.ask (.scheduleJob due
      ⟨watchdogJobType, (Watchdog.mk task.id task.lockExpiry).payload⟩)).2
      (.jobScheduled (s.names.next s.engine).job) rfl
    refine Settles.then ?_ noted.engine (by rw [noted.deferred, List.append_nil]) noted.delayed
    exact settles_ask _ (fun _ _ => rfl) accepted (.inr (.inr silent)) fun incident => by cases incident

theorem settles_endRequest (s : System) (call : ProcessorCall) (sound : s.engine.Sound none)
    (available : s.engine.available = true) (owned : s.engine.ownedRecord task.id call.worker = .ok record)
    {timeout : Option Span} {message : Option String} (async : call.registration.contract = .async timeout message)
    (attempt : Attempt (Option Instant))
    (wait : ∀ failure, attempt.result = .error (.retryable failure) →
      ∃ expiry, deadline s.now (task.decision s.settings.retryDelay failure).delay = .ok expiry) :
    s.Settles call.registration task.id
      (task.settle call.worker s.settings.retryDelay (fun named => task.awaits (s.responseDue? timeout named))
        attempt)
      (s.endRequest call task attempt).1 (s.endRequest call task attempt).2 := by
  unfold endRequest
  simp only [async]
  refine settles_conclude ?_ task
  cases result : attempt.result with
  | error error => exact settles_failed call.registration sound available owned _ result wait
  | ok named =>
    cases attempt with
    | failed error => cases result
    | panicked reason => cases result
    | returned value =>
      cases result
      exact settles_armWatchdog available timeout named

/-- Ending an action changes neither the engine nor what is deferred or delayed. -/
theorem finishCall_rest (s : System) (call : ProcessorCall) :
    (s.finishCall call).engine = s.engine ∧ (s.finishCall call).deferred = s.deferred ∧
      (s.finishCall call).host.delayed = s.host.delayed := by
  unfold finishCall
  cases call.action with
  | none => exact ⟨rfl, rfl, rfl⟩
  | some action =>
    have queued : ({ s with host := s.host.finish action } : System).deferred = s.deferred := by
      simp only [deferred, Host.finish_queued]
    rw [Option.elim_some]
    rcases s.finishAction_cases action with same | ⟨next, same⟩
    · rw [same]
      exact ⟨rfl, queued, s.host.finish_delayed action⟩
    · rw [same]
      exact ⟨rfl, queued, s.host.finish_delayed action⟩

/-- A system that has done with a call of a processor. -/
def dropCall (s : System) (number : Nat) : System :=
  { s with calls := s.calls.filter fun other => other.number ≠ number }

theorem endCall_process {call : ProcessorCall} {number : Nat}
    (pending : s.calls.find? (fun other => other.number = number) = some call)
    (subject : call.subject = .process task) (attempt : Attempt Variables) :
    s.endCall number .process attempt =
      (.processed ((s.dropCall number).endProcess call task attempt).1,
        ((s.dropCall number).endProcess call task attempt).2.finishCall call) := by
  unfold endCall
  simp only [pending, subject]
  rfl

theorem endCall_request {call : ProcessorCall} {number : Nat}
    (pending : s.calls.find? (fun other => other.number = number) = some call)
    (subject : call.subject = .request task) (attempt : Attempt (Option Instant)) :
    s.endCall number .request attempt =
      (.processed ((s.dropCall number).endRequest call task attempt).1,
        ((s.dropCall number).endRequest call task attempt).2.finishCall call) := by
  unfold endCall
  simp only [pending, subject]
  rfl

theorem endCall_respond {call : ProcessorCall} {number : Nat} {answered : ExternalTask} {input : Json}
    (pending : s.calls.find? (fun other => other.number = number) = some call)
    (subject : call.subject = .respond answered input) (attempt : Attempt (Json × Variables)) :
    s.endCall number .respond attempt =
      (.responded ((s.dropCall number).endRespond call answered attempt).1,
        ((s.dropCall number).endRespond call answered attempt).2.finishCall call) := by
  unfold endCall
  simp only [pending, subject]
  rfl

/-- What is settled once the call is dropped is settled for the system that had it. -/
theorem Settles.ofDropped {number : Nat} {settlement : Settlement} {outcome : Outcome} {after : System}
    {id : String} (settles : (s.dropCall number).Settles registration id settlement outcome after)
    (call : ProcessorCall) : s.Settles registration id settlement outcome (after.finishCall call) :=
  Settles.then ⟨settles.outcome, settles.engine, settles.deferred, settles.delayed, settles.incident⟩
    (after.finishCall_rest call).1 (after.finishCall_rest call).2.1 (after.finishCall_rest call).2.2

/-- Processing a leased task calls the processor of its registration, in the worker's name, and when the
processor has ended, in whatever way, tells the engine of it by one call, as its table has it. -/
theorem process_settles (s₀ s : System) (action : Option Nat) (task : LeasedTask) (registration : Registration)
    (registered : s₀.registry.lookup ⟨task.definitionKey, task.topic⟩ = some registration)
    (reachable : s.engine.Reachable) (available : s.engine.available = true)
    (owned : s.engine.ownedRecord task.id s₀.settings.workerId = .ok record)
    (unrefused : task.id ∉ s.engine.refusals)
    (pending : s.calls.find? (fun call => call.number = s₀.callCount + 1) =
      some (s₀.attemptAt action registration task))
    (attempt : Attempt registration.contract.attempts.Value)
    (wait : ∀ failure, attempt.result = .error (.retryable failure) →
      ∃ expiry, deadline s.now (task.decision s.settings.retryDelay failure).delay = .ok expiry) :
    (s₀.process action task).1 = .calling (s₀.attemptAt action registration task) ∧
      (s₀.process action task).2.engine = s₀.engine ∧
      ∃ outcome, (s.step (.answer (s₀.callCount + 1) registration.contract.attempts attempt)).1 =
          .processed outcome ∧
        s.Settles registration task.id (s.settlement task s₀.settings.workerId registration.contract attempt)
          outcome (s.step (.answer (s₀.callCount + 1) registration.contract.attempts attempt)).2 := by
  obtain ⟨moves, fresh, reached⟩ := reachable
  have sound : s.engine.Sound none := reached ▸ (Engine.run_sound fresh).1
  refine ⟨?_, ?_, ?_⟩
  · simp only [System.process, registered, callProcessor]
    rfl
  · simp only [System.process, registered, callProcessor]
    rfl
  · obtain ⟨key, lockTimeout, vars, contract⟩ := registration
    cases contract with
    | sync =>
      have settles := settles_endProcess (s.dropCall (s₀.callCount + 1))
        (s₀.attemptAt action ⟨key, lockTimeout, vars, .sync⟩ task) sound available owned unrefused attempt wait
      have ended := endCall_process pending rfl attempt
      refine ⟨_, congrArg Prod.fst ended, ?_⟩
      change s.Settles _ task.id _ _ (s.endCall (s₀.callCount + 1) .process attempt).2
      rw [ended]
      exact settles.ofDropped _
    | async timeout message =>
      have settles := settles_endRequest (s.dropCall (s₀.callCount + 1))
        (s₀.attemptAt action ⟨key, lockTimeout, vars, .async timeout message⟩ task) sound available owned rfl
        attempt wait
      have ended := endCall_request pending rfl attempt
      refine ⟨_, congrArg Prod.fst ended, ?_⟩
      change s.Settles _ task.id _ _ (s.endCall (s₀.callCount + 1) .request attempt).2
      rw [ended]
      exact settles.ofDropped _

/-- A dispatcher that has leased the one task of its one registration. -/
def oneLeased : System :=
  (System.create ⟨fun _ => "i", fun _ => "x", fun _ => "t", fun _ => "j", fun _ => "n"⟩ .epoch
    (Settings.defaults "w") false).run
    [.register "order" "money" none .all .sync,
      .operate .done (.deploy ⟨"order", [⟨"pay", .serviceTask, some "money", none⟩]⟩),
      .operate .name (.start "order" none .empty), .dispatch ⟨"order", "money"⟩]

def leasedTask : LeasedTask :=
  ⟨"t", "order", "money", "i", none, "pay", "x", ⟨60000000000, false, by decide, by decide⟩, .empty, none⟩

/-- A first attempt that fails in a way worth three attempts leaves two, after the worker's wait. -/
theorem process_settles_retried :
    let s := (oneLeased.process none leasedTask).2
    let attempt : Attempt Variables := .failed (.retryable ⟨"busy", 3, [], none⟩)
    ∃ outcome, (s.step (.answer 1 .process attempt)).1 = .processed outcome ∧
      s.Settles ⟨⟨"order", "money"⟩, none, .all, .sync⟩ "t" ⟨.retryScheduled, some ⟨.done, .failure "t" "w"
        ⟨"busy", "busy", 2, .ofSeconds 5⟩⟩, some (.ofSeconds 5)⟩ outcome (s.step (.answer 1 .process attempt)).2 := by
  have reachable : (oneLeased.process none leasedTask).2.engine.Reachable :=
    ⟨[.call .epoch ⟨"a", "a", "a", "a", "a"⟩
        (.deploy ⟨"order", [⟨"pay", .serviceTask, some "money", none⟩]⟩),
      .call .epoch ⟨"i", "x", "t", "j", "n"⟩ (.start "order" none .empty),
      .call .epoch ⟨"b", "b", "b", "b", "b"⟩ (.lease ⟨unboundedLease, "w", "money", .ofMillis 60000, .all,
        some "order"⟩)], by decide, rfl⟩
  refine (process_settles oneLeased _ none leasedTask ⟨⟨"order", "money"⟩, none, .all, .sync⟩ rfl reachable rfl
    rfl (by decide) rfl (.failed (.retryable ⟨"busy", 3, [], none⟩)) fun failure same => ?_).2.2
  cases same
  exact ⟨_, rfl⟩

end System

end TaskLeasing
