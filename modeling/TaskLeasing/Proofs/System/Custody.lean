import TaskLeasing.Proofs.System.Actions

namespace TaskLeasing

/-- A call that others may make of an engine while a worker leases from it: a harmless one, or the report of a
failure that is not the worker's or leaves no retries. -/
def Operation.Fair (worker : String) {kind : AnswerKind} : Operation kind → Prop
  | .failure _ reporter report => reporter ≠ worker ∨ report.retries = 0
  | operation => operation.Harmless

/-- The registration that work leases for at once. -/
def Work.leasesFor? : Work → Option Registration
  | .lease registration => some registration
  | _ => none

/-- The registration that a move leases for at once. -/
def System.leasesFor? (s : System) : Move → Option Registration
  | .dispatch key => s.registry.lookup key
  | .start action =>
    if s.host.queued.any fun a => a.number = action then
      ((s.host.start action).running? action).bind fun a => a.work.leasesFor?
    else none
  | .resume action =>
    if s.host.granted.any fun a => a.number = action then
      ((s.host.resume action).running? action).bind fun a => a.work.leasesFor?
    else none
  | _ => none

/-- The wait before the next attempt that a move reports. -/
def System.waits? (s : System) : Move → Option Span
  | .answer number _ attempt => (s.calls.find? fun call => call.number = number).bind fun call =>
    call.subject.attempt?.bind fun lease => match attempt.result with
      | .error (.retryable failure) => some (lease.decision s.settings.retryDelay failure).delay
      | _ => none
  | _ => none

/-- The leased tasks whose requests a move finds sent. -/
def System.sends (s : System) : Move → List LeasedTask
  | .answer number .request attempt => match s.calls.find? fun call => call.number = number with
    | some call => match call.subject with
      | .request lease => sentBy lease attempt
      | _ => []
    | none => []
  | _ => []

/-- Whether a move is one of a run of a dispatcher that is kept alive and attached under one name, alone
leases tasks, and is registered before instances start. -/
def System.Allows (s : System) : Move → Prop
  | .operate _ operation => operation.Fair s.settings.workerId ∧ (operation.isStart = true → 0 < s.listening)
  | .register .. => s.engine.instances = []
  | .process task => task ∈ s.leased
  | .setWorkerId worker => worker = s.settings.workerId
  | .release => 0 < s.sweepers
  | .dropSweeper => s.released = false ∨ 1 < s.sweepers
  | .passTo time => s.now ≤ time
  | _ => True

/-- A move that is allowed while one lease can take all open tasks, and whose lock and wait, if it uses any, end
within the calendar. -/
structure System.Permits (s : System) (move : Move) : Prop where
  allowed : s.Allows move
  few : s.engine.tasks.length < unboundedLease
  lock_accepted : ∀ registration, s.leasesFor? move = some registration →
    ∃ expiry, deadline s.now (registration.effectiveLock s.settings.lockTimeout) = .ok expiry
  wait_accepted : ∀ wait, s.waits? move = some wait → ∃ expiry, deadline s.now wait = .ok expiry

/-- Whether each of the moves is permitted where it is made. -/
def System.Permitted : System → List Move → Prop
  | _, [] => True
  | s, move :: rest => s.Permits move ∧ (s.step move).2.Permitted rest

/-- The leased tasks whose requests were sent in the course of moves. -/
def System.sent : System → List Move → List LeasedTask
  | _, [] => []
  | s, move :: rest => s.sends move ++ (s.step move).2.sent rest

/-- Nothing is in progress, and nothing is left for the host to do. -/
structure System.Idle (s : System) : Prop where
  calls : s.calls = []
  works : s.host.works = []
  held : s.gate.getD [] = []

namespace System

variable {s : System} {hand : List Work} {sent : List LeasedTask}

theorem Tracked.operate (tracked : s.Tracked hand sent) {kind : AnswerKind} {operation : Operation kind}
    (fair : operation.Fair s.settings.workerId) (starts : operation.isStart = true → 0 < s.listening) :
    (s.operate operation).2.Tracked hand sent := by
  cases operation with
  | scheduleJob due payload =>
    have asked := tracked.ask (.scheduleJob due payload) trivial rfl
    unfold System.operate
    simp only
    split
    · next job t scheduled =>
      rw [scheduled] at asked
      exact asked.defers (defers_note _ _ rfl)
    · next error t refused =>
      rw [refused] at asked
      exact asked
  | lease request => cases fair
  | failure task reporter report =>
    obtain ⟨leases, answers⟩ := s.answers_call (.failure task reporter report)
    refine tracked.failure (fun accepted => .inl ?_) answers
    rcases fair with other | terminal
    · obtain ⟨_, record, _, _, owned⟩ := Engine.reportFailure_ok accepted
      obtain ⟨member, _, leaser⟩ := Engine.ownedRecord_ok owned
      exact absurd (tracked.engine.owner record member reporter leaser) other
    · exact terminal
  | _ => exact tracked.call fair starts

/-- Before any instance starts there is no task that a new registration could have missed. -/
theorem Tracked.register (tracked : s.Tracked hand sent) (unstarted : s.engine.instances = [])
    (definitionKey topic : String) (lockTimeout : Option Span) (vars : VariableScope) (contract : Contract) :
    (s.register definitionKey topic lockTimeout vars contract).2.Tracked hand sent := by
  unfold System.register
  split
  · next entry registry registered =>
    have amended : System.Tracked { s with registry := registry } hand sent :=
      tracked.amend tracked.attached (Registry.register_grows registered) rfl fun record member => by
        -- every open task belongs to an instance, and there is none
        obtain ⟨run, atRun, _⟩ := tracked.engine.sound.belongs record member
        rw [unstarted] at atRun
        cases atRun
    exact amended.defers (defers_log _ _)
  · exact tracked.defers (defers_log _ _)
  · exact tracked

/-- However the processor of an attempt ends, its task is seen to. -/
theorem Tracked.endCall (tracked : s.Tracked hand sent) (number : Nat) (kind : CallKind)
    (attempt : Attempt kind.Value) (accepted : ∀ wait, s.waits? (.answer number kind attempt) = some wait →
      ∃ expiry, deadline s.now wait = .ok expiry) :
    (s.endCall number kind attempt).2.Tracked hand (sent ++ s.sends (.answer number kind attempt)) := by
  have untouched : s.Tracked hand (sent ++ []) := by
    rw [List.append_nil]
    exact tracked
  cases pending : s.calls.find? fun call => call.number = number with
  | none => cases kind <;> simpa only [System.endCall, System.sends, pending] using untouched
  | some call =>
    have atCall := List.mem_of_find?_eq_some pending
    have dropped := tracked.dropCall pending
    cases subject : call.subject with
    | respond task input =>
      simp only [subject, CallSubject.attempt?, Option.map_none, Option.toList_none, List.nil_append] at dropped
      cases kind with
      | respond =>
        simp only [System.endCall, System.sends, pending, subject, List.append_nil]
        exact (dropped.endRespond call task attempt).finishCall call
      | _ => simpa only [System.endCall, System.sends, pending, subject] using untouched
    | process task =>
      obtain ⟨_, worker, registered, key⟩ := (tracked.calls call atCall).attempt task (by rw [subject]; rfl)
      simp only [subject, CallSubject.attempt?, Option.map_some, Option.toList_some, List.cons_append,
        List.nil_append] at dropped
      cases kind with
      | process =>
        have wait (failure : RetryableFailure) (failed : attempt.result = .error (.retryable failure)) :=
          accepted (task.decision s.settings.retryDelay failure).delay
            (by simp [waits?, pending, subject, CallSubject.attempt?, failed])
        rw [endCall_process pending subject attempt]
        simp only [System.sends, List.append_nil]
        exact (dropped.endProcess worker registered key attempt wait).finishCall call
      | _ => simpa only [System.endCall, System.sends, pending, subject] using untouched
    | request task =>
      obtain ⟨_, worker, registered, key⟩ := (tracked.calls call atCall).attempt task (by rw [subject]; rfl)
      simp only [subject, CallSubject.attempt?, Option.map_some, Option.toList_some, List.cons_append,
        List.nil_append] at dropped
      cases kind with
      | request =>
        have wait (failure : RetryableFailure) (failed : attempt.result = .error (.retryable failure)) :=
          accepted (task.decision s.settings.retryDelay failure).delay
            (by simp [waits?, pending, subject, CallSubject.attempt?, failed])
        rw [endCall_request pending subject attempt]
        simp only [System.sends, pending, subject]
        exact (dropped.endRequest worker registered key attempt wait).finishCall call
      | _ => simpa only [System.endCall, System.sends, pending, subject] using untouched

theorem setLockTimeout_workerId {settings after : Settings} {timeout : Span}
    (changed : settings.setLockTimeout timeout = .ok after) : after.workerId = settings.workerId := by
  unfold Settings.setLockTimeout at changed
  split at changed
  · cases changed
  · cases changed
    rfl

/-- The outcome tells how far processing got, the state is the same. -/
theorem step_process (s : System) (task : LeasedTask) : (s.step (.process task)).2 = (s.process none task).2 := by
  unfold System.step
  simp only
  split
  · next outcome t result => rw [result]
  · next call t result => rw [result]

theorem step_respond (s : System) (task : String) (input : Json) :
    (s.step (.respond task input)).2 = (s.respond task input).2 := by
  unfold System.step
  simp only
  split
  · next outcome t result => rw [result]
  · next call t result => rw [result]

theorem Tracked.stepLockTimeout (tracked : s.Tracked hand sent) (timeout : Span) :
    (s.step (.setLockTimeout timeout)).2.Tracked hand sent := by
  unfold System.step
  simp only
  split
  · next settings changed =>
    exact tracked.amend tracked.attached (fun _ entry => entry) (setLockTimeout_workerId changed)
      fun _ _ served => served
  · exact tracked

theorem Tracked.stepStart (tracked : s.Tracked hand sent) (action : Nat)
    (few : s.engine.tasks.length ≤ unboundedLease)
    (locks : ∀ registration, s.leasesFor? (.start action) = some registration →
      ∃ expiry, deadline s.now (registration.effectiveLock s.settings.lockTimeout) = .ok expiry) :
    (s.step (.start action)).2.Tracked hand sent := by
  unfold System.step
  simp only
  split
  · next found =>
    obtain ⟨a, member, number⟩ := List.any_eq_true.mp found
    obtain rfl : a.number = action := by simpa using number
    refine tracked.start member few fun registration runs leases => locks registration ?_
    simp only [leasesFor?, found, if_true, runs, Option.bind_some, leases, Work.leasesFor?]
  · exact tracked

theorem Tracked.stepResume (tracked : s.Tracked hand sent) (action : Nat)
    (few : s.engine.tasks.length ≤ unboundedLease)
    (locks : ∀ registration, s.leasesFor? (.resume action) = some registration →
      ∃ expiry, deadline s.now (registration.effectiveLock s.settings.lockTimeout) = .ok expiry) :
    (s.step (.resume action)).2.Tracked hand sent := by
  unfold System.step
  simp only
  split
  · next found =>
    obtain ⟨a, member, number⟩ := List.any_eq_true.mp found
    obtain rfl : a.number = action := by simpa using number
    refine tracked.resume member few fun registration runs leases => locks registration ?_
    simp only [leasesFor?, found, if_true, runs, Option.bind_some, leases, Work.leasesFor?]
  · exact tracked

theorem Tracked.stepWake (tracked : s.Tracked hand sent) (action : Nat) :
    (s.step (.wake action)).2.Tracked hand sent := by
  unfold System.step
  simp only
  split
  · exact tracked
  · exact (tracked.wake action).defers (defers_note _ _ rfl)

/-- A permitted move loses no task. -/
theorem Tracked.step (tracked : s.Tracked hand sent) {move : Move} (permits : s.Permits move) :
    (s.step move).2.Tracked hand (sent ++ s.sends move) := by
  obtain ⟨allowed, few, locks, waits⟩ := permits
  have few := Nat.le_of_lt few
  -- all moves but the end of a request send none
  have quiet (none' : s.sends move = []) (stays : (s.step move).2.Tracked hand sent) :
      (s.step move).2.Tracked hand (sent ++ s.sends move) := by
    rw [none', List.append_nil]
    exact stays
  cases move with
  | answer number kind attempt => exact tracked.endCall number kind attempt waits
  | operate kind operation => exact quiet rfl (tracked.operate allowed.1 allowed.2)
  | setHandler type fails => exact quiet rfl (tracked.defers { Defers.refl s with })
  | attach =>
    have handled : (s.setHandler watchdogJobType .watchdog).Tracked hand sent :=
      tracked.defers { Defers.refl s with }
    refine quiet rfl ?_
    exact handled.amend (fun _ => Nat.succ_pos _) (fun _ entry => entry) rfl fun _ _ served => served
  | register definitionKey topic lockTimeout vars contract =>
    exact quiet rfl (tracked.register allowed definitionKey topic lockTimeout vars contract)
  | sweep => exact quiet rfl tracked.sweep
  | dispatch key => exact quiet rfl (tracked.dispatch key few fun registration found => locks registration found)
  | process task =>
    have proper : (Work.process task).Proper s := allowed
    refine quiet rfl ?_
    rw [step_process]
    exact (tracked.put proper).process none
  | respond task input =>
    refine quiet rfl ?_
    rw [step_respond]
    exact tracked.respond task input
  | fireWatchdog payload => exact quiet rfl (tracked.fireWatchdog payload)
  | setWorkerId worker =>
    exact quiet rfl (tracked.amend tracked.attached (fun _ entry => entry) allowed fun _ _ served => served)
  | setLockTimeout timeout => exact quiet rfl (tracked.stepLockTimeout timeout)
  | release => exact quiet rfl (tracked.defers { Defers.refl s with kept_alive := fun _ => .inr allowed })
  | holdSweeper =>
    exact quiet rfl (tracked.defers { Defers.refl s with kept_alive := fun _ => .inr (Nat.succ_pos _) })
  | dropSweeper =>
    have kept (_ : s.Kept) : System.Kept { s with sweepers := s.sweepers - 1 } :=
      allowed.imp_right Nat.sub_pos_of_lt
    exact quiet rfl (tracked.defers { Defers.refl s with kept_alive := kept })
  | start action => exact quiet rfl (tracked.stepStart action few locks)
  | resume action => exact quiet rfl (tracked.stepResume action few locks)
  | wake action => exact quiet rfl (tracked.stepWake action)
  | commit => exact quiet rfl (tracked.add s.shifts_commit (by simp))
  | runJob job => exact quiet rfl (tracked.runJob job)
  | passTo time => exact quiet rfl (tracked.passTo allowed)

/-- A permitted run loses no task. -/
theorem Tracked.run {moves : List Move} (tracked : s.Tracked hand sent) (permitted : s.Permitted moves) :
    (s.run moves).Tracked hand (sent ++ s.sent moves) := by
  induction moves generalizing s sent with
  | nil =>
    rw [System.sent, List.append_nil]
    exact tracked
  | cons move rest ih =>
    rw [System.sent, ← List.append_assoc]
    exact ih (tracked.step permitted.1) permitted.2

/-- An idle system has nothing to do. -/
theorem Idle.duties (idle : s.Idle) : s.duties = [] := by
  have works := idle.works
  simp only [Host.works, List.append_eq_nil_iff, List.map_eq_nil_iff] at works
  obtain ⟨⟨⟨⟨queued, waiting⟩, granted⟩, _⟩, delayed⟩ := works
  refine List.eq_nil_iff_forall_not_mem.mpr fun duty member => ?_
  rcases mem_duties.mp member with ⟨ready, _⟩ | ⟨d, atD, _⟩ | ⟨call, atCall, _⟩
  · rw [mem_ready, idle.held, queued, waiting, granted] at ready
    simp at ready
  · rw [delayed] at atD
    cases atD
  · rw [idle.calls] at atCall
    cases atCall

/-- A dispatcher that sends the request of its one task. -/
def oneRequest : List Move :=
  [.attach, .register "order" "money" none .all (.async none none),
    .operate .done (.deploy ⟨"order", [⟨"pay", .serviceTask, some "money", none⟩]⟩),
    .operate .name (.start "order" none .empty), .start 0, .start 1, .start 2, .start 3,
    .answer 1 .request (.returned none)]

def unaryNames : Naming :=
  ⟨fun n => String.ofList (List.replicate n 'i'), fun _ => "x", fun n => String.ofList (List.replicate n 't'),
    fun _ => "j", fun _ => "n"⟩

theorem unaryNames_distinct : unaryNames.Distinct := by
  have unary (c : Char) : Function.Injective fun n => String.ofList (List.replicate n c) := by
    intro a b same
    simpa using congrArg String.length same
  exact ⟨unary 't', unary 'i'⟩

end System

end TaskLeasing
