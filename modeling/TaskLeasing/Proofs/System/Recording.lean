import TaskLeasing.Proofs.Engine.Incidents
import TaskLeasing.Proofs.System.Custody

namespace TaskLeasing

/-- The report of a failed attempt at a task, unless its error is one that the process models. -/
def LeasedTask.reportOf? (task : LeasedTask) (wait : Span) : ProcessorError → Option FailureReport
  | .business _ => none
  | .retryable failure => some (failure.report (task.decision wait failure))
  | .failure chain => some (.terminal chain.error (ProcessorError.failure chain).incidentDetails)

theorem LeasedTask.reportOf?_message {task : LeasedTask} {wait : Span} {error : ProcessorError}
    {report : FailureReport} (reported : task.reportOf? wait error = some report) :
    report.message = error.message := by
  cases error <;> cases reported <;> rfl

/-- The wait that a report asks for is over at once, or retries are left to wait for. -/
theorem LeasedTask.reportOf?_exhausted {task : LeasedTask} {wait : Span} {error : ProcessorError}
    {report : FailureReport} (reported : task.reportOf? wait error = some report) (exhausted : report.retries = 0) :
    report.delay = .zero := by
  cases error with
  | business error => cases reported
  | failure chain =>
    cases reported
    rfl
  | retryable failure =>
    cases reported
    exact nextRetry_exhausted exhausted

namespace Engine

variable {e : Engine}

/-- The record of an open task carries a failed attempt: its message and details, and the retries left to it. -/
def Carries (e : Engine) (task : String) (report : FailureReport) : Prop :=
  ∃ record ∈ e.tasks, record.task.id = task ∧ record.task.errorMessage = some report.message ∧
    record.errorDetails = some report.details ∧ record.task.retries = some report.retries

theorem reportFailure_carries (available : e.available = true) {now expiry : Instant} {report : FailureReport}
    (accepted : deadline now report.delay = .ok expiry) {task worker : String} {record : TaskRecord}
    (owned : e.ownedRecord task worker = .ok record) (fresh : String) :
    (e.reportFailure now fresh task worker report).engine.Carries task report := by
  obtain ⟨member, rfl, _⟩ := ownedRecord_ok owned
  refine ⟨record.fail report expiry, ?_, rfl, rfl, rfl, rfl⟩
  rw [reportFailure_tasks available accepted owned]
  exact List.mem_map.mpr ⟨record, member, if_pos rfl⟩

/-- A report whose wait leads beyond the calendar changes nothing. -/
theorem reportFailure_beyond {now : Instant} {report : FailureReport} {refusal : EngineError}
    (beyond : deadline now report.delay = .error refusal) (fresh task worker : String) :
    (e.reportFailure now fresh task worker report).result.isOk = false ∧
      (e.reportFailure now fresh task worker report).engine = e := by
  unfold reportFailure
  simp only [beyond]
  split <;> exact ⟨rfl, rfl⟩

end Engine

namespace System

variable {s : System} {registration : Registration} {task : LeasedTask} {worker : String} {record : TaskRecord}
  {error : ProcessorError} {report : FailureReport}

/-- An error that is reported leads to a retry if the report is accepted and leaves retries, else to an
incident. -/
theorem settleError_reported (worker : String) (registration : Registration)
    (reported : task.reportOf? s.settings.retryDelay error = some report) :
    (s.settleError task registration worker error).1 =
        (if (s.report task.id worker report).1 = true ∧ 0 < report.retries then .retryScheduled else .incident) ∧
      (s.settleError task registration worker error).2.engine = (s.report task.id worker report).2.engine := by
  cases error with
  | business error => cases reported
  | failure chain =>
    cases reported
    exact ⟨(if_neg fun again => Nat.lt_irrefl 0 again.2).symm, rfl⟩
  | retryable failure =>
    have same : report = ⟨failure.message, (ProcessorError.retryable failure).incidentDetails,
        (nextRetry failure.maxAttempts task.retries (s.backoff failure)).retriesLeft,
        (nextRetry failure.maxAttempts task.retries (s.backoff failure)).delay⟩ := by
      cases reported
      rfl
    have willRetry : (nextRetry failure.maxAttempts task.retries (s.backoff failure)).willRetry =
        decide (0 < report.retries) := by
      rw [same]
      rfl
    unfold System.settleError
    simp only [← same, willRetry]
    rcases s.report task.id worker report with ⟨accepted, after⟩
    cases accepted with
    | false => exact ⟨by simp, rfl⟩
    | true =>
      by_cases again : 0 < report.retries
      · have later := defers_afterCommit after "retry" (.deferRetry registration
          (nextRetry failure.maxAttempts task.retries (s.backoff failure)).delay)
        simp only [again, decide_true, if_true, and_self]
        exact ⟨trivial, later.engine⟩
      · simp only [again, decide_false, Bool.false_eq_true, if_false, and_false]
        exact ⟨trivial, trivial⟩

/-- An error of a processor that is reported is carried by the record of its task, unless the report's wait leads
beyond the calendar: then nothing is, and the outcome is an incident that there is not. -/
theorem settleError_records (registration : Registration) (available : s.engine.available = true)
    (owned : s.engine.ownedRecord task.id worker = .ok record)
    (reported : task.reportOf? s.settings.retryDelay error = some report) :
    match deadline s.now report.delay with
    | .ok _ =>
      (s.settleError task registration worker error).1 =
          (if 0 < report.retries then .retryScheduled else .incident) ∧
        (s.settleError task registration worker error).2.engine.Carries task.id report ∧
        (report.retries = 0 →
          (s.settleError task registration worker error).2.engine.hasOpenIncident task.id = true)
    | .error _ =>
      0 < report.retries ∧ (s.settleError task registration worker error).1 = .incident ∧
        (s.settleError task registration worker error).2.engine = s.engine := by
  obtain ⟨outcome, engine⟩ := settleError_reported worker registration reported
  rw [outcome, engine, (s.report_rest task.id worker report).1]
  cases accepted : deadline s.now report.delay with
  | ok expiry =>
    obtain ⟨answered, _, incident⟩ := failure_accepted available owned report ⟨expiry, accepted⟩
    have settled := (s.report_accepts task.id worker report).mpr answered
    refine ⟨?_, Engine.reportFailure_carries available accepted owned _, incident⟩
    simp only [settled, true_and]
  | error refusal =>
    obtain ⟨refused, same⟩ :=
      Engine.reportFailure_beyond (e := s.engine) accepted (s.names.next s.engine).incident task.id worker
    have unsettled : (s.report task.id worker report).1 ≠ true := fun settled => by
      have answered : (s.engine.reportFailure s.now (s.names.next s.engine).incident task.id worker report).result =
          .ok () := (s.report_accepts task.id worker report).mp settled
      rw [answered] at refused
      cases refused
    refine ⟨?_, if_neg fun again => unsettled again.1, same⟩
    by_contra none'
    have noWait := LeasedTask.reportOf?_exhausted reported (by simpa using none')
    obtain ⟨expiry, within⟩ := deadline_zero s.now
    rw [noWait, within] at accepted
    cases accepted

/-- A business error takes its task from the engine. -/
theorem settleError_business (registration : Registration) (sound : s.engine.Sound none)
    (new : (s.names.next s.engine).NewTo s.engine) (available : s.engine.available = true)
    (owned : s.engine.ownedRecord task.id worker = .ok record) (business : BusinessError) :
    (s.settleError task registration worker (.business business)).1 = .businessError ∧
      ∀ other ∈ (s.settleError task registration worker (.business business)).2.engine.tasks,
        other.task.id ≠ task.id := by
  have accepted : (s.engine.step s.now (s.names.next s.engine) (.businessError task.id worker business.code
      business.message business.vars)).result = .ok () := sound.raiseBusinessError_ok available owned _ _ _
  have decides := sound.businessError_decides new.tasks task.id worker business.code business.vars
  have engine := (s.ask_rest (.businessError task.id worker business.code business.message business.vars)).1
  unfold System.settleError
  simp only
  rw [ask_eq accepted, engine]
  rcases decides with ⟨_, closes⟩ | ⟨refused, _⟩
  · exact ⟨rfl, closes.gone⟩
  · rw [sound.raiseBusinessError_ok available owned] at refused
    cases refused

theorem endProcess_failed (s : System) (call : ProcessorCall) (task : LeasedTask) {attempt : Attempt Variables}
    (failed : attempt.result = .error error) :
    s.endProcess call task attempt = (s.settleError task call.registration call.worker error).2.conclude task
      (s.settleError task call.registration call.worker error).1 := by
  simp only [endProcess, failed]

theorem endRequest_failed (s : System) (call : ProcessorCall) (task : LeasedTask)
    {attempt : Attempt (Option Instant)} (failed : attempt.result = .error error) :
    s.endRequest call task attempt = (s.settleError task call.registration call.worker error).2.conclude task
      (s.settleError task call.registration call.worker error).1 := by
  simp only [endRequest, failed]

/-- An attempt that ends in an error, under either contract, is settled as one; all else that is done then leaves the
engine alone. -/
theorem answer_failed {s₀ : System} {action : Option Nat}
    (pending : s.calls.find? (fun call => call.number = s₀.callCount + 1) =
      some (s₀.attemptAt action registration task))
    (attempt : Attempt registration.contract.attempts.Value) (failed : attempt.result = .error error) :
    let settled := (s.dropCall (s₀.callCount + 1)).settleError task registration s₀.settings.workerId error
    (s.step (.answer (s₀.callCount + 1) registration.contract.attempts attempt)).1 = .processed settled.1 ∧
      (s.step (.answer (s₀.callCount + 1) registration.contract.attempts attempt)).2.engine = settled.2.engine := by
  obtain ⟨key, lockTimeout, vars, contract⟩ := registration
  cases contract with
  | sync =>
    have ended := endCall_process pending rfl attempt
    rw [endProcess_failed _ _ _ failed] at ended
    refine ⟨congrArg Prod.fst ended, ?_⟩
    change (s.endCall (s₀.callCount + 1) .process attempt).2.engine = _
    rw [ended]
    exact (finishCall_rest _ _).1
  | async timeout message =>
    have ended := endCall_request pending rfl attempt
    rw [endRequest_failed _ _ _ failed] at ended
    refine ⟨congrArg Prod.fst ended, ?_⟩
    change (s.endCall (s₀.callCount + 1) .request attempt).2.engine = _
    rw [ended]
    exact (finishCall_rest _ _).1

/-- Whatever error ends an attempt at a leased task: a business error takes the task from the engine; any other is
carried by the task's record with the message of the error and the retries that are granted, and an outcome that is
an incident has one open. The only exception is a retry that is to wait beyond the calendar: nothing is recorded of
it, and the outcome is an incident all the same. -/
theorem process_records (s₀ s : System) (action : Option Nat) (task : LeasedTask) (registration : Registration)
    (registered : s₀.registry.lookup ⟨task.definitionKey, task.topic⟩ = some registration)
    (reachable : s.engine.Reachable) (new : (s.names.next s.engine).NewTo s.engine)
    (available : s.engine.available = true) (owned : s.engine.ownedRecord task.id s₀.settings.workerId = .ok record)
    (pending : s.calls.find? (fun call => call.number = s₀.callCount + 1) =
      some (s₀.attemptAt action registration task))
    (attempt : Attempt registration.contract.attempts.Value) (failed : attempt.result = .error error) :
    (s₀.process action task).1 = .calling (s₀.attemptAt action registration task) ∧ ∃ outcome after,
      s.step (.answer (s₀.callCount + 1) registration.contract.attempts attempt) = (.processed outcome, after) ∧
        match task.reportOf? s.settings.retryDelay error with
        | none => outcome = .businessError ∧ ∀ other ∈ after.engine.tasks, other.task.id ≠ task.id
        | some report => report.message = error.message ∧
          match deadline s.now report.delay with
          | .ok _ =>
            outcome = (if 0 < report.retries then .retryScheduled else .incident) ∧
              after.engine.Carries task.id report ∧
              (outcome = .incident → after.engine.hasOpenIncident task.id = true)
          | .error _ => 0 < report.retries ∧ outcome = .incident ∧ after.engine = s.engine := by
  obtain ⟨moves, fresh, reached⟩ := reachable
  have sound : s.engine.Sound none := reached ▸ (Engine.run_sound fresh).1
  obtain ⟨outcome, engine⟩ := answer_failed pending attempt failed
  refine ⟨by simp only [System.process, registered, callProcessor]; rfl, _, _, Prod.ext outcome rfl, ?_⟩
  cases reported : task.reportOf? s.settings.retryDelay error with
  | none =>
    cases error with
    | business business =>
      rw [engine]
      exact settleError_business (s := s.dropCall (s₀.callCount + 1)) registration sound new available owned business
    | retryable failure => cases reported
    | failure chain => cases reported
  | some report =>
    refine ⟨LeasedTask.reportOf?_message reported, ?_⟩
    have records := settleError_records (s := s.dropCall (s₀.callCount + 1)) registration available owned reported
    rw [engine]
    have clock : (s.dropCall (s₀.callCount + 1)).now = s.now := rfl
    rw [clock] at records
    cases accepted : deadline s.now report.delay with
    | error refusal =>
      simp only [accepted] at records ⊢
      exact records
    | ok expiry =>
      simp only [accepted] at records ⊢
      obtain ⟨decided, carried, incident⟩ := records
      refine ⟨decided, carried, fun ended => incident ?_⟩
      by_contra again
      have retries : 0 < report.retries := UInt32.pos_iff_ne_zero.mpr again
      rw [decided, if_pos retries] at ended
      cases ended

/-- A dispatcher that has leased a task, with names for more. -/
def oneAtWork : System := (({ oneLeased with names := unaryNames } : System).process none leasedTask).2

theorem reachable_oneAtWork : oneAtWork.engine.Reachable :=
  ⟨[.call .epoch ⟨"a", "a", "a", "a", "a"⟩ (.deploy ⟨"order", [⟨"pay", .serviceTask, some "money", none⟩]⟩),
    .call .epoch ⟨"i", "x", "t", "j", "n"⟩ (.start "order" none .empty),
    .call .epoch ⟨"b", "b", "b", "b", "b"⟩ (.lease ⟨unboundedLease, "w", "money", .ofMillis 60000, .all,
      some "order"⟩)], by decide, rfl⟩

/-- A first attempt of three fails: the record of its task carries its message and the two attempts left. -/
theorem process_records_first :
    let attempt : Attempt Variables := .failed (.retryable ⟨"busy", 3, [.ofSeconds 1], none⟩)
    ∃ outcome after, oneAtWork.step (.answer 1 .process attempt) = (.processed outcome, after) ∧
      outcome = .retryScheduled ∧ after.engine.Carries "t" ⟨"busy", "busy", 2, .ofSeconds 1⟩ := by
  have new : (oneAtWork.names.next oneAtWork.engine).NewTo oneAtWork.engine :=
    ⟨fun run member => List.mem_singleton.mp member ▸ by decide,
      fun record member => List.mem_singleton.mp member ▸ by decide⟩
  obtain ⟨_, outcome, after, stepped, _, decided, carried, _⟩ := process_records
    { oneLeased with names := unaryNames } oneAtWork none leasedTask ⟨⟨"order", "money"⟩, none, .all, .sync⟩ rfl
    reachable_oneAtWork new rfl rfl rfl (.failed (.retryable ⟨"busy", 3, [.ofSeconds 1], none⟩)) rfl
  exact ⟨outcome, after, stepped, decided, carried⟩

/-- A first attempt that fails in a way worth three attempts, with a wait before the next that leads beyond the
calendar. -/
def endlessWait : Attempt Variables := .failed (.retryable ⟨"busy", 3, [.ofMillis 9000000000000000], none⟩)

/-- The report is refused: the outcome is an incident, but none is open, and the record knows of no failure. -/
theorem process_unrecorded :
    let ended := oneAtWork.step (.answer 1 .process endlessWait)
    oneAtWork.engine.Reachable ∧ oneAtWork.engine.available = true ∧
      (oneAtWork.engine.tasks.map fun record => (record.task.id, record.task.worker)) = [("t", some "w")] ∧
      (leasedTask.decision oneAtWork.settings.retryDelay ⟨"busy", 3, [.ofMillis 9000000000000000], none⟩).retriesLeft =
        2 ∧
      ended.1 = .processed .incident ∧ ended.2.engine.hasOpenIncident "t" = false ∧
      (ended.2.engine.tasks.map fun record => (record.task.id, record.task.errorMessage, record.task.retries)) =
        [("t", none, none)] :=
  ⟨reachable_oneAtWork, rfl, rfl, rfl, rfl, rfl, rfl⟩

end System

end TaskLeasing
