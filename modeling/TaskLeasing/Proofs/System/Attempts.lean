import TaskLeasing.Proofs.System.Settlement
import TaskLeasing.Proofs.System.Tracking

namespace TaskLeasing.System

variable {s after : System} {hand : List Work} {sent : List LeasedTask} {lease : LeasedTask}
  {registration : Registration}

/-- When a retry is due the lock that its report left is over. -/
theorem covers_retry {old : TaskRecord} {report : FailureReport} {expiry : Instant}
    (serves : registration.Serves old.task) (accepted : deadline s.now report.delay = .ok expiry) :
    (Work.deferRetry registration report.delay).Covers s.now (old.fail report expiry).task := by
  refine ⟨serves, fun begun ordinary past bound locked => ?_⟩
  cases locked
  obtain ⟨later, ends, early⟩ := deadline_le s.ordinary accepted
  cases reached : begun.plus? report.delay with
  | none => exact Instant.le_last (deadline_ordinary s.ordinary accepted)
  | some due =>
    obtain ⟨before, same, earlier⟩ := Instant.plus?_mono s.ordinary ordinary past reached
    cases ends.symm.trans same
    exact Instant.le_trans early earlier

/-- A retryable failure of an attempt is settled by its report: the task is to be leased again after the delay, or
has no retries left. -/
theorem Tracked.settleRetryable (tracked : s.Tracked (.process lease :: hand) sent)
    (registered : registration ∈ s.registry.entries) (key : registration.key = ⟨lease.definitionKey, lease.topic⟩)
    (failure : RetryableFailure)
    (accepted : ∃ expiry, deadline s.now (lease.decision s.settings.retryDelay failure).delay = .ok expiry) :
    (s.settleError lease registration s.settings.workerId (.retryable failure)).2.Tracked hand sent := by
  have leased : lease ∈ s.leased := tracked.at_hand _ (List.mem_cons_self ..)
  have decided : nextRetry failure.maxAttempts lease.retries (s.backoff failure) =
    lease.decision s.settings.retryDelay failure := rfl
  have report : (⟨failure.message, (ProcessorError.retryable failure).incidentDetails,
      (lease.decision s.settings.retryDelay failure).retriesLeft,
      (lease.decision s.settings.retryDelay failure).delay⟩ : FailureReport) =
    failure.report (lease.decision s.settings.retryDelay failure) := rfl
  unfold System.settleError
  simp only [decided, report]
  generalize lease.decision s.settings.retryDelay failure = decision at accepted ⊢
  have genuine := tracked.genuine lease leased
  split
  · next t reported =>
    have settled := tracked.reportOwn [] (by simp) (failure.report decision) accepted fun answered =>
      absurd ((s.report_accepts _ _ _).mpr answered) (by simp [reported])
    rw [reported] at settled
    exact settled
  · next t reported =>
    split
    · have proper : (Work.deferRetry registration decision.delay).Proper s := registered
      have settled := tracked.reportOwn [.deferRetry registration decision.delay]
        (fun work member => List.mem_singleton.mp member ▸ proper) (failure.report decision) accepted fun _ =>
          .inr ⟨_, List.mem_singleton_self _, fun old atOld id expiry due => covers_retry ?_ due⟩
      · rw [reported] at settled
        exact settled.afterCommit "retry"
      · obtain ⟨definitionKey, topic, _⟩ := genuine.own old atOld id
        rw [Registration.Serves, key, definitionKey, topic]
    · next exhausted =>
      have settled := tracked.reportOwn [] (by simp) (failure.report decision) accepted fun _ =>
        .inl (by simpa [RetryDecision.willRetry, RetryableFailure.report] using exhausted)
      rw [reported] at settled
      exact settled

/-- An attempt that ends in an error is settled: the task ends, its incident is raised, or it is to be leased
again after its delay. -/
theorem Tracked.settleError (tracked : s.Tracked (.process lease :: hand) sent)
    (registered : registration ∈ s.registry.entries) (key : registration.key = ⟨lease.definitionKey, lease.topic⟩)
    (error : ProcessorError) (wait : ∀ failure, error = .retryable failure →
      ∃ expiry, deadline s.now (lease.decision s.settings.retryDelay failure).delay = .ok expiry) :
    (s.settleError lease registration s.settings.workerId error).2.Tracked hand sent := by
  cases error with
  | failure chain => exact tracked.raiseOwn _ _
  | business error =>
    unfold System.settleError
    simp only
    cases result : (s.engine.step s.now (s.names.next s.engine)
        (.businessError lease.id s.settings.workerId error.code error.message error.vars)).result with
    | ok value =>
      rw [ask_eq result]
      exact tracked.askEnd trivial rfl result
    | error refusal =>
      rw [ask_eq result]
      exact tracked.askRefused (.businessError lease.id s.settings.workerId error.code error.message error.vars)
        trivial rfl refusal
  | retryable failure => exact tracked.settleRetryable registered key failure (wait failure rfl)

/-- What a call has to do is at hand once the call is over. -/
theorem Tracked.dropCall (tracked : s.Tracked hand sent) {number : Nat} {call : ProcessorCall}
    (pending : s.calls.find? (fun other => other.number = number) = some call) :
    (s.dropCall number).Tracked ((call.subject.attempt?.map Work.process).toList ++ hand) sent := by
  have atCall := List.mem_of_find?_eq_some pending
  have numbered : call.number = number := by simpa using List.find?_some pending
  have fewer (duty : Duty) (member : duty ∈ (s.dropCall number).duties) : duty ∈ s.duties := by
    rcases mem_duties.mp member with ready | delayed | ⟨other, atOther, attempt⟩
    · exact mem_duties.mpr (.inl ready)
    · exact mem_duties.mpr (.inr (.inl delayed))
    · exact mem_duties.mpr (.inr (.inr ⟨other, List.mem_of_mem_filter atOther, attempt⟩))
  refine { tracked with
    genuine := ?_, calls_distinct := ?_, calls := ?_, duties := ?_, at_hand := ?_, covered := ?_ }
  · exact fun lease member => (tracked.genuine lease member).of_eq rfl rfl rfl
  · exact tracked.calls_distinct.sublist (List.filter_sublist.map _)
  · exact fun other member => (tracked.calls other (List.mem_of_mem_filter member)).mono (Nat.le_refl _)
      (fun _ leased => leased) rfl fun _ entry => entry
  · exact fun duty member => (tracked.duties duty (fewer duty member)).mono (fun _ entry => entry)
      fun _ leased => leased
  · intro work member
    rcases List.mem_append.mp member with own | old
    · obtain ⟨lease, attempt, rfl⟩ := Option.map_eq_some_iff.mp (Option.mem_toList.mp own)
      exact ((tracked.calls call atCall).attempt lease attempt).1
    · exact (tracked.at_hand work old).mono (fun _ entry => entry) fun _ leased => leased
  · intro record member registered
    refine (tracked.covered record member registered).replace
      (fun work atHand covers => .at_hand (List.mem_append_right _ atHand) covers) fun duty owed covers => ?_
    rcases mem_duties.mp owed with ready | delayed | ⟨other, atOther, lease, attempt, rfl⟩
    · exact .owed (mem_duties.mpr (.inl ready)) covers
    · exact .owed (mem_duties.mpr (.inr (.inl delayed))) covers
    · -- no two calls have one number, so an attempt under this number is the call's own
      by_cases same : other.number = number
      · have equal : other = call :=
          List.inj_on_of_nodup_map tracked.calls_distinct atOther atCall (same.trans numbered.symm)
        rw [equal] at attempt
        refine .at_hand (List.mem_append_left _ ?_) covers
        simp [attempt]
      · refine .owed (mem_duties.mpr (.inr (.inr ⟨other, ?_, lease, attempt, rfl⟩))) covers
        exact List.mem_filter.mpr ⟨atOther, by simpa using same⟩

/-- What a call is to do need not be at hand once a processor has been called. -/
theorem Tracked.callProcessor (subject : CallSubject) (action : Option Nat)
    (tracked : s.Tracked ((subject.attempt?.map Work.process).toList ++ hand) sent)
    (registered : registration ∈ s.registry.entries) (key : ∀ lease, subject.attempt? = some lease →
      registration.key = ⟨lease.definitionKey, lease.topic⟩) :
    (s.callProcessor action registration s.settings.workerId subject).2.Tracked hand sent := by
  obtain ⟨call, made⟩ : ∃ call : ProcessorCall,
    call = ⟨s.callCount + 1, action, registration, s.settings.workerId, subject⟩ := ⟨_, rfl⟩
  have called : System.Tracked { s with callCount := call.number, calls := s.calls ++ [call] } hand sent := by
    have duties (duty : Duty) :
        duty ∈ System.duties { s with callCount := call.number, calls := s.calls ++ [call] } ↔
          duty ∈ s.duties ∨ ∃ lease, subject.attempt? = some lease ∧ duty = (.process lease, s.now) := by
      rw [mem_duties, mem_duties]
      simp only [List.mem_append, List.mem_singleton, or_and_right, exists_or, exists_eq_left, or_assoc, made]
      rfl
    refine { tracked with
      genuine := ?_, calls_distinct := ?_, calls := ?_, duties := ?_, at_hand := ?_, covered := ?_ }
    · exact fun lease member => (tracked.genuine lease member).of_eq rfl rfl rfl
    · rw [List.map_append]
      refine tracked.calls_distinct.append (List.nodup_singleton _) fun number old new => ?_
      obtain ⟨other, atOther, rfl⟩ := List.mem_map.mp old
      have counted := (tracked.calls other atOther).counted
      have equal : other.number = s.callCount + 1 := by simpa [made] using new
      omega
    · intro other member
      rcases List.mem_append.mp member with old | new
      · have later : s.callCount ≤ call.number := made ▸ Nat.le_succ _
        exact (tracked.calls other old).mono later (fun _ leased => leased) rfl fun _ entry => entry
      · rw [List.mem_singleton.mp new]
        refine ⟨Nat.le_refl _, fun lease attempt => ?_⟩
        rw [made] at attempt ⊢
        refine ⟨tracked.at_hand (.process lease) (List.mem_append_left _ ?_), rfl, registered, key lease attempt⟩
        simp [show subject.attempt? = some lease from attempt]
    · intro duty member
      rcases (duties duty).mp member with old | ⟨lease, attempt, rfl⟩
      · exact (tracked.duties duty old).mono (fun _ entry => entry) fun _ leased => leased
      · refine tracked.at_hand (.process lease) (List.mem_append_left _ ?_)
        simp [attempt]
    · intro work member
      exact (tracked.at_hand work (List.mem_append_right _ member)).mono (fun _ entry => entry)
        fun _ leased => leased
    · intro record member served
      refine (tracked.covered record member served).replace (fun work atHand covers => ?_)
        fun duty owed covers => .owed ((duties duty).mpr (.inl owed)) covers
      rcases List.mem_append.mp atHand with own | old
      · obtain ⟨lease, attempt, rfl⟩ := Option.map_eq_some_iff.mp (Option.mem_toList.mp own)
        exact .owed ((duties _).mpr (.inr ⟨lease, attempt, rfl⟩)) covers
      · exact .at_hand old covers
  rw [made] at called
  exact called.defers (defers_note _ (.called _) rfl)

/-- Starting on a leased task leaves it to a processor, or in an incident. -/
theorem Tracked.process (tracked : s.Tracked (.process lease :: hand) sent) (action : Option Nat) :
    (s.process action lease).2.Tracked hand sent := by
  unfold System.process
  cases found : s.registry.lookup ⟨lease.definitionKey, lease.topic⟩ with
  | none =>
    simp only [found]
    exact (tracked.raiseOwn _ _).conclude lease .incident
  | some registration =>
    have registered := List.mem_of_find?_eq_some found
    have key (other : LeasedTask) (same : some lease = some other) :
        registration.key = ⟨other.definitionKey, other.topic⟩ := by
      cases same
      exact Registry.lookup_key found
    simp only [found]
    cases registration.contract with
    | sync => exact Tracked.callProcessor (.process lease) action tracked registered key
    | async timeout message => exact Tracked.callProcessor (.request lease) action tracked registered key

/-- A processor that has ended, in whatever way, leaves its task ended, in an incident or to be leased
again. -/
theorem Tracked.endProcess (tracked : s.Tracked (.process lease :: hand) sent) {call : ProcessorCall}
    (worker : call.worker = s.settings.workerId) (registered : call.registration ∈ s.registry.entries)
    (key : call.registration.key = ⟨lease.definitionKey, lease.topic⟩) (attempt : Attempt Variables)
    (wait : ∀ failure, attempt.result = .error (.retryable failure) →
      ∃ expiry, deadline s.now (lease.decision s.settings.retryDelay failure).delay = .ok expiry) :
    (s.endProcess call lease attempt).2.Tracked hand sent := by
  unfold System.endProcess
  refine Tracked.conclude ?_ lease _
  rw [worker]
  cases result : attempt.result with
  | error error => exact tracked.settleError registered key error fun failure same => wait failure (same ▸ result)
  | ok vars =>
    simp only
    cases answered : (s.engine.step s.now (s.names.next s.engine)
        (.complete lease.id s.settings.workerId vars)).result with
    | ok value =>
      rw [ask_eq answered]
      exact tracked.askEnd trivial rfl answered
    | error refusal =>
      rw [ask_eq answered]
      exact tracked.askRefused (.complete lease.id s.settings.workerId vars) trivial rfl refusal

/-- Watching over a response loses no task. -/
theorem Tracked.armWatchdog (tracked : s.Tracked hand sent) (task : LeasedTask) (timeout : Option Span)
    (named : Option Instant) : (s.armWatchdog task timeout named).Tracked hand sent := by
  unfold System.armWatchdog
  cases s.responseDue? timeout named with
  | none => exact tracked
  | some due =>
    have asked := tracked.ask (.scheduleJob due ⟨watchdogJobType, (Watchdog.mk task.id task.lockExpiry).payload⟩)
      trivial rfl
    simp only
    split
    · next job t scheduled =>
      rw [scheduled] at asked
      exact asked.defers (defers_note _ _ rfl)
    · next error t refused =>
      rw [refused] at asked
      exact asked.defers (defers_log _ _)

/-- The requests that the end of an attempt adds to those that were sent. -/
def sentBy (lease : LeasedTask) : Attempt (Option Instant) → List LeasedTask
  | .returned _ => [lease]
  | .failed _ => []
  | .panicked _ => []

/-- A request that was sent leaves its task to wait for the response; one that failed is settled. -/
theorem Tracked.endRequest (tracked : s.Tracked (.process lease :: hand) sent) {call : ProcessorCall}
    (worker : call.worker = s.settings.workerId) (registered : call.registration ∈ s.registry.entries)
    (key : call.registration.key = ⟨lease.definitionKey, lease.topic⟩) (attempt : Attempt (Option Instant))
    (wait : ∀ failure, attempt.result = .error (.retryable failure) →
      ∃ expiry, deadline s.now (lease.decision s.settings.retryDelay failure).delay = .ok expiry) :
    (s.endRequest call lease attempt).2.Tracked hand (sent ++ sentBy lease attempt) := by
  unfold System.endRequest
  refine Tracked.conclude ?_ lease _
  rw [worker]
  cases attempt with
  | returned named => exact tracked.send.armWatchdog lease _ named
  | failed error =>
    rw [sentBy, List.append_nil]
    exact tracked.settleError registered key error fun failure same => wait failure (congrArg _ same)
  | panicked reason =>
    rw [sentBy, List.append_nil]
    exact tracked.settleError registered key _ fun failure same => wait failure (congrArg _ same)

end TaskLeasing.System
