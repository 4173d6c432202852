import TaskLeasing.Proofs.Engine.Tending
import TaskLeasing.Proofs.System.Acts
import TaskLeasing.Proofs.System.Settlement

namespace TaskLeasing

/-- The leased tasks that a call gave. -/
def Asked.leased : Asked → List LeasedTask
  | ⟨.tasks, .lease _, .ok tasks⟩ => tasks
  | _ => []

/-- The retryable failure that an attempt ended in. -/
def Attempt.retryable? {α : Type} (attempt : Attempt α) : Option RetryableFailure :=
  match attempt.result with
  | .error (.retryable failure) => some failure
  | _ => none

/-- Tame calls of the engine are made, and no task is handed out. -/
def System.Tames (s after : System) : Prop :=
  ∃ asks : List Asked, (∀ ask ∈ asks, ask.operation.Tame) ∧ s.Does after asks []

/-- A call that finishes a task, whatever comes of it: the task is ended, or its worker fails it for good and at
once. -/
inductive Asked.Finishes (worker task : String) : Asked → Prop
  | ended {operation : Operation .done} (ends : operation.Ends task) : Finishes worker task ⟨.done, operation, .ok ()⟩
  | failed {report : FailureReport} {result : Except EngineError Unit} (retries : report.retries = 0)
      (delay : report.delay = .zero) : Finishes worker task ⟨.done, .failure task worker report, result⟩

/-- Tame calls of the engine are made, the last of which finishes a task. -/
def System.Finishes (s : System) (worker task : String) (after : System) : Prop :=
  ∃ (asks : List Asked) (last : Asked), (∀ ask ∈ asks, ask.operation.Tame) ∧ last.Finishes worker task ∧
    s.Does after (asks ++ [last]) []

theorem Asked.Finishes.tame {worker task : String} {ask : Asked} (finishes : ask.Finishes worker task) :
    ask.operation.Tame := by
  cases finishes with
  | ended ends => exact ends.tame
  | failed retries delay => exact retries

namespace System

variable {s middle after : System} {asks : List Asked}

theorem Does.tames (does : s.Does after [] []) : s.Tames after := ⟨[], by simp, does⟩

theorem Tames.trans (first : s.Tames middle) (second : middle.Tames after) : s.Tames after := by
  obtain ⟨asks, tame, does⟩ := first
  obtain ⟨more, tame', does'⟩ := second
  refine ⟨asks ++ more, fun ask member => ?_, does.trans does'⟩
  exact (List.mem_append.mp member).elim (tame ask) (tame' ask)

theorem Tames.then (first : s.Tames middle) (second : middle.Does after [] []) : s.Tames after :=
  first.trans second.tames

theorem tames_ask (s : System) {kind : AnswerKind} {operation : Operation kind} (tame : operation.Tame) :
    s.Tames (s.ask operation).2 :=
  ⟨_, fun _ member => List.mem_singleton.mp member ▸ tame, s.does_ask operation⟩

/-- What is made of tame acts is tame, whatever is counted, if no work that is left hands tasks out. -/
theorem Acts.tames {works : Work → Prop} {counts : Prop}
    (acts : s.Acts (fun _ operation => operation.Tame) works counts after)
    (unleased : ∀ work, works work → work.leases = []) : s.Tames after := by
  induction acts with
  | done => exact (Does.refl s).tames
  | note _ quiet ih => exact ih.then (does_note _ quiet)
  | count _ _ counters ih => exact ih.then (does_count _ counters)
  | ask _ tame ih => exact ih.trans (tames_ask _ tame)
  | @defer t _ label work allowed ih =>
    have deferred := t.does_afterCommit label work
    rw [unleased work allowed] at deferred
    exact ih.then deferred

theorem ActsTamely.tames (acts : s.ActsTamely after) : s.Tames after := Acts.tames acts fun _ => False.elim

theorem does_report (s : System) (task worker : String) (report : FailureReport) :
    s.Does (s.report task worker report).2
      [⟨.done, .failure task worker report, (s.ask (.failure task worker report)).1⟩] [] := by
  have asked := s.does_ask (.failure task worker report)
  unfold System.report
  split
  · next value t result =>
    rw [result] at asked ⊢
    exact asked
  · next reason t result =>
    rw [result] at asked ⊢
    exact asked.then (does_log _ _)

theorem Finishes.tames {worker task : String} (finishes : s.Finishes worker task after) : s.Tames after := by
  obtain ⟨asks, last, tame, finish, does⟩ := finishes
  refine ⟨_, fun ask member => ?_, does⟩
  rcases List.mem_append.mp member with early | latest
  · exact tame ask early
  · exact List.mem_singleton.mp latest ▸ finish.tame

theorem Finishes.then {worker task : String} (finishes : s.Finishes worker task middle)
    (second : middle.Does after [] []) : s.Finishes worker task after := by
  obtain ⟨asks, last, tame, finish, does⟩ := finishes
  exact ⟨asks, last, tame, finish, does.then second⟩

theorem Tames.finishes {worker task : String} (first : s.Tames middle) (second : middle.Finishes worker task after) :
    s.Finishes worker task after := by
  obtain ⟨asks, tame, does⟩ := first
  obtain ⟨more, last, tame', finish, does'⟩ := second
  refine ⟨asks ++ more, last, fun ask member => ?_, finish, ?_⟩
  · exact (List.mem_append.mp member).elim (tame ask) (tame' ask)
  · rw [List.append_assoc]
    exact does.trans does'

theorem finishes_raiseIncident (s : System) (task worker message details : String) :
    s.Finishes worker task (s.raiseIncident task worker message details) :=
  ⟨[], _, by simp, .failed rfl rfl, s.does_report task worker _⟩

theorem tames_raiseIncident (s : System) (task worker message details : String) :
    s.Tames (s.raiseIncident task worker message details) :=
  (s.finishes_raiseIncident task worker message details).tames

/-- The engine is told to end a task, and if it refuses the task fails for good. -/
theorem finishes_told (s : System) (operation : Operation .done) {task : String} (ends : operation.Ends task)
    (worker : String) :
    match s.ask operation with
    | (.ok _, t) => s.Finishes worker task t
    | (.error refusal, t) => s.Finishes worker task (t.raiseEngineIncident task worker refusal) := by
  have asked := s.does_ask operation
  have tames := s.tames_ask ends.tame
  split
  · next value t result =>
    rw [result] at asked
    exact ⟨[], _, by simp, .ended ends, asked⟩
  · next refusal t result =>
    rw [result] at tames
    exact tames.finishes (t.finishes_raiseIncident task worker _ _)

theorem does_conclude (s : System) (task : LeasedTask) (outcome : Outcome) :
    s.Does (s.conclude task outcome).2 [] [] := (s.does_count _).then (does_log _ _)

/-- An error that is not retryable finishes the task. -/
theorem finishes_settleError (s : System) (task : LeasedTask) (registration : Registration) (worker : String)
    {error : ProcessorError} (final : ∀ failure, error ≠ .retryable failure) :
    s.Finishes worker task.id (s.settleError task registration worker error).2 := by
  cases error with
  | retryable failure => exact absurd rfl (final failure)
  | failure chain => exact finishes_raiseIncident s _ _ _ _
  | business error =>
    have told := s.finishes_told (.businessError task.id worker error.code error.message error.vars) rfl worker
    unfold System.settleError
    simp only
    split
    · next value t result =>
      rw [result] at told
      exact told
    · next refusal t result =>
      rw [result] at told
      exact told

/-- A retryable failure is reported as it is decided on, and a retry may be deferred. -/
theorem does_settleRetryable (s : System) (task : LeasedTask) (registration : Registration) (worker : String)
    (failure : RetryableFailure) :
    let report := failure.report (task.decision s.settings.retryDelay failure)
    s.Does (s.settleError task registration worker (.retryable failure)).2
      [⟨.done, .failure task.id worker report, (s.ask (.failure task.id worker report)).1⟩] [] := by
  intro report
  have reported := s.does_report task.id worker report
  have decided : nextRetry failure.maxAttempts task.retries (s.backoff failure) =
    task.decision s.settings.retryDelay failure := rfl
  have same : (⟨failure.message, (ProcessorError.retryable failure).incidentDetails,
      (task.decision s.settings.retryDelay failure).retriesLeft,
      (task.decision s.settings.retryDelay failure).delay⟩ : FailureReport) = report := rfl
  unfold System.settleError
  simp only [decided, same]
  split
  · next t result =>
    rw [result] at reported
    exact reported
  · next t result =>
    rw [result] at reported
    split
    · exact reported.then (t.does_afterCommit "retry" _)
    · exact reported

theorem tames_armWatchdog (s : System) (task : LeasedTask) (timeout : Option Span) (named : Option Instant) :
    s.Tames (s.armWatchdog task timeout named) := (s.acts_armWatchdog task timeout named).tames

/-- The end of an attempt that is no retryable failure finishes the task. -/
theorem finishes_endProcess (s : System) (call : ProcessorCall) (task : LeasedTask) {attempt : Attempt Variables}
    (final : ∀ failure, attempt.result ≠ .error (.retryable failure)) :
    s.Finishes call.worker task.id (s.endProcess call task attempt).2 := by
  unfold System.endProcess
  simp only
  refine Finishes.then ?_ (does_conclude _ _ _)
  cases result : attempt.result with
  | error error =>
    refine s.finishes_settleError task call.registration call.worker fun failure same => final failure ?_
    rw [result, same]
  | ok vars =>
    have told := s.finishes_told (.complete task.id call.worker vars) rfl call.worker
    simp only
    split
    · next value t result =>
      rw [result] at told
      exact told
    · next refusal t result =>
      rw [result] at told
      exact told

/-- The end of a request that is no retryable failure leaves the task no retries, if it leaves the task open. -/
theorem tames_endRequest (s : System) (call : ProcessorCall) (task : LeasedTask)
    {attempt : Attempt (Option Instant)} (final : ∀ failure, attempt.result ≠ .error (.retryable failure)) :
    s.Tames (s.endRequest call task attempt).2 := by
  unfold System.endRequest
  simp only
  refine Tames.then ?_ (does_conclude _ _ _)
  cases result : attempt.result with
  | error error =>
    refine (s.finishes_settleError task call.registration call.worker fun failure same => final failure ?_).tames
    rw [result, same]
  | ok named => exact tames_armWatchdog s task _ named

/-- The report that a retryable failure of an attempt ends in, with its result. -/
def failureAsk (s : System) (worker : String) (task : LeasedTask) (failure : RetryableFailure) : Asked :=
  ⟨.done, .failure task.id worker (failure.report (task.decision s.settings.retryDelay failure)),
    (s.ask (.failure task.id worker (failure.report (task.decision s.settings.retryDelay failure)))).1⟩

theorem does_endProcess (s : System) (call : ProcessorCall) (task : LeasedTask) {attempt : Attempt Variables}
    {failure : RetryableFailure} (failed : attempt.result = .error (.retryable failure)) :
    s.Does (s.endProcess call task attempt).2 [s.failureAsk call.worker task failure] [] := by
  unfold System.endProcess
  simp only [failed]
  exact (s.does_settleRetryable task call.registration call.worker failure).then (does_conclude _ _ _)

theorem does_endRequest (s : System) (call : ProcessorCall) (task : LeasedTask)
    {attempt : Attempt (Option Instant)} {failure : RetryableFailure}
    (failed : attempt.result = .error (.retryable failure)) :
    s.Does (s.endRequest call task attempt).2 [s.failureAsk call.worker task failure] [] := by
  unfold System.endRequest
  simp only [failed]
  exact (s.does_settleRetryable task call.registration call.worker failure).then (does_conclude _ _ _)

/-- What the end of an attempt of a kind comes to: its retryable failure is reported, and else one that was to
complete the task finishes it, while one that was to send a request makes tame calls. -/
def Ends (s : System) (kind : CallKind) (worker : String) (lease : LeasedTask) (failure? : Option RetryableFailure)
    (after : System) : Prop :=
  match failure?, kind with
  | some failure, _ => s.Does after [s.failureAsk worker lease failure] []
  | none, .process => s.Finishes worker lease.id after
  | none, _ => s.Tames after

theorem retryable?_eq_some {α : Type} {attempt : Attempt α} {failure : RetryableFailure} :
    attempt.retryable? = some failure ↔ attempt.result = .error (.retryable failure) := by
  unfold Attempt.retryable?
  split
  · next other failed => rw [failed, Option.some.injEq, Except.error.injEq, ProcessorError.retryable.injEq]
  · next final => exact iff_of_false nofun (final failure)

theorem not_retryable {α : Type} {attempt : Attempt α} (final : attempt.retryable? = none)
    (failure : RetryableFailure) : attempt.result ≠ .error (.retryable failure) := fun same => by
  rw [retryable?_eq_some.mpr same] at final
  cases final

theorem ends_endProcess (s : System) (call : ProcessorCall) (lease : LeasedTask) (attempt : Attempt Variables) :
    s.Ends .process call.worker lease attempt.retryable? (s.endProcess call lease attempt).2 := by
  cases failed : attempt.retryable? with
  | some failure => exact s.does_endProcess call lease (retryable?_eq_some.mp failed)
  | none => exact s.finishes_endProcess call lease (not_retryable failed)

theorem ends_endRequest (s : System) (call : ProcessorCall) (lease : LeasedTask)
    (attempt : Attempt (Option Instant)) :
    s.Ends .request call.worker lease attempt.retryable? (s.endRequest call lease attempt).2 := by
  cases failed : attempt.retryable? with
  | some failure => exact s.does_endRequest call lease (retryable?_eq_some.mp failed)
  | none => exact s.tames_endRequest call lease (not_retryable failed)

theorem tames_compensate (s : System) (task : ExternalTask) (worker : String) (vars : Variables)
    (error : EngineError) : s.Tames (s.compensate task worker vars error) :=
  (s.acts_compensate task worker vars error).tames

theorem tames_endRespond (s : System) (call : ProcessorCall) (task : ExternalTask)
    (attempt : Attempt (Json × Variables)) : s.Tames (s.endRespond call task attempt).2 :=
  (s.acts_endRespond call task attempt).tames fun work compensates => by
    cases work with
    | compensate => rfl
    | _ => cases compensates

theorem tames_fireWatchdog (s : System) (payload : String) : s.Tames (s.fireWatchdog payload).2 :=
  (s.acts_fireWatchdog payload).tames fun _ => False.elim

/-- The lease that is made for a registration, with its result. -/
def leaseAsk (s : System) (registration : Registration) : Asked :=
  ⟨.tasks, .lease (s.leaseRequest registration), (s.ask (.lease (s.leaseRequest registration))).1⟩

theorem does_logTasks (s : System) (operation status : String) (tasks : List LeasedTask) :
    s.Does (tasks.foldl (fun s task => s.logTask operation task status) s) [] [] := by
  induction tasks generalizing s with
  | nil => exact .refl s
  | cons first rest ih => exact (s.does_log _).trans (ih (s.logTask operation first status))

/-- A lease of the dispatcher hands out the tasks that it is given. -/
theorem does_leaseNow (s : System) (registration : Registration) :
    s.Does (s.leaseNow registration).2 [s.leaseAsk registration] (s.leaseAsk registration).leased := by
  have asked := s.does_ask (.lease (s.leaseRequest registration))
  unfold System.leaseNow leaseAsk
  split
  · next reason t result =>
    rw [result] at asked ⊢
    exact asked
  · next t result =>
    rw [result] at asked ⊢
    exact asked
  · next tasks t _ result =>
    rw [result] at asked ⊢
    have handed := ((t.does_count (t.counters.countLeased (UInt64.ofNat tasks.length))).trans
      (does_logTasks _ "fetch_and_lock" "leased" tasks)).trans (does_afterCommit _ "process" (.handOut tasks))
    exact asked.trans handed

theorem does_leaseLogged (s : System) (registration : Registration) :
    s.Does (s.leaseLogged registration) [s.leaseAsk registration] (s.leaseAsk registration).leased := by
  have leased := s.does_leaseNow registration
  unfold System.leaseLogged
  split
  · next number t result =>
    rw [result] at leased
    exact leased
  · next reason t result =>
    rw [result] at leased
    exact (leased.then (does_count t _)).then (does_log _ _)

theorem does_sweep (s : System) : s.Does s.sweep.2 [] [] := by
  have deferred (entries : List Registration) (t : System) :
      t.Does (entries.foldl (fun s registration => s.afterCommit "fetch_and_lock" (.deferLease registration)) t)
        [] [] := by
    induction entries generalizing t with
    | nil => exact .refl t
    | cons first rest ih => exact (t.does_afterCommit "fetch_and_lock" (.deferLease first)).trans (ih _)
  exact deferred s.registry.entries s

end System

end TaskLeasing
