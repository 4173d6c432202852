import TaskLeasing.Proofs.System.Acts

namespace TaskLeasing

/-- The counts of requests sent, of responses handled and of watchdogs that fired. -/
structure Traffic where
  sent : UInt64
  handled : UInt64
  fired : UInt64

def Counters.traffic (c : Counters) : Traffic := ⟨c.asyncRequestsSent, c.asyncResponsesHandled, c.watchdogsFired⟩

def Traffic.plus (t : Traffic) (sent handled fired : Nat) : Traffic :=
  ⟨t.sent + UInt64.ofNat sent, t.handled + UInt64.ofNat handled, t.fired + UInt64.ofNat fired⟩

theorem Traffic.plus_zero (t : Traffic) : t.plus 0 0 0 = t := by simp [Traffic.plus]

theorem Traffic.plus_plus (t : Traffic) (sent handled fired sent' handled' fired' : Nat) :
    (t.plus sent handled fired).plus sent' handled' fired' =
      t.plus (sent + sent') (handled + handled') (fired + fired') := by
  simp only [Traffic.plus, UInt64.ofNat_add, UInt64.add_assoc]

/-- Whether a watchdog that ran has fired. -/
def hasFired : Except WatchdogError Verdict → Bool
  | .ok .fired => true
  | _ => false

namespace System

variable {s : System}

theorem counters_afterCommit (s : System) (label : String) (work : Work) :
    (s.afterCommit label work).counters = s.counters := by
  unfold System.afterCommit
  simp only
  split <;> rfl

theorem counters_react (s : System) (event : ActivityStarted) : (s.react event).counters = s.counters := by
  unfold System.react
  split
  · rfl
  · simp only
    split
    · exact counters_afterCommit _ _ _
    · rfl

theorem counters_announceAll (s : System) (events : List ActivityStarted) :
    (events.foldl System.announce s).counters = s.counters := by
  have reactions (times : List Nat) (event : ActivityStarted) (t : System) :
      (times.foldl (fun s _ => s.react event) t).counters = t.counters := by
    induction times generalizing t with
    | nil => rfl
    | cons _ rest ih => exact (ih (t.react event)).trans (t.counters_react event)
  induction events generalizing s with
  | nil => rfl
  | cons event rest ih => exact (ih (s.announce event)).trans (reactions _ event (s.note (.started event)))

/-- What the engine and its subscribers do is not counted. -/
theorem counters_call (s : System) {kind : AnswerKind} (operation : Operation kind) :
    (s.call operation).2.counters = s.counters := counters_announceAll (s.advanced operation) _

theorem counters_ask (s : System) {kind : AnswerKind} (operation : Operation kind) :
    (s.ask operation).2.counters = s.counters := s.counters_call operation

/-- Acts that do not count leave the counters alone. -/
theorem Acts.counters {after : System} {asks : (kind : AnswerKind) → Operation kind → Prop} {works : Work → Prop}
    (acts : s.Acts asks works False after) : after.counters = s.counters := by
  induction acts with
  | done => rfl
  | note _ _ ih => exact ih
  | count _ never _ _ => cases never
  | ask _ _ ih => exact (counters_ask _ _).trans ih
  | defer _ label work _ ih => exact (counters_afterCommit _ label work).trans ih

theorem counters_conclude (s : System) (task : LeasedTask) (outcome : Outcome) :
    (s.conclude task outcome).2.counters = s.counters.countOutcome outcome := rfl

/-- The end of an attempt is counted by its outcome, and nothing else is. -/
theorem counters_endProcess (s : System) (call : ProcessorCall) (task : LeasedTask) (attempt : Attempt Variables) :
    (s.endProcess call task attempt).2.counters =
      s.counters.countOutcome (s.endProcess call task attempt).1 := by
  unfold System.endProcess
  simp only
  rw [counters_conclude]
  refine congrArg (Counters.countOutcome · _) ?_
  cases attempt.result with
  | error error => exact (s.acts_settleError task call.registration call.worker error).counters
  | ok vars =>
    have asked := s.counters_ask (.complete task.id call.worker vars)
    simp only
    split
    · next value t result =>
      rw [result] at asked
      exact asked
    · next refusal t result =>
      rw [result] at asked
      exact (t.acts_raiseIncident task.id call.worker _ _).counters.trans asked

theorem counters_endRequest (s : System) (call : ProcessorCall) (task : LeasedTask)
    (attempt : Attempt (Option Instant)) :
    (s.endRequest call task attempt).2.counters =
      s.counters.countOutcome (s.endRequest call task attempt).1 := by
  unfold System.endRequest
  simp only
  rw [counters_conclude]
  refine congrArg (Counters.countOutcome · _) ?_
  cases attempt.result with
  | error error => exact (s.acts_settleError task call.registration call.worker error).counters
  | ok named => exact (s.acts_armWatchdog task _ named).counters

theorem counters_deferCompensation (s : System) (task : ExternalTask) (worker : String) (vars : Variables)
    (error : EngineError) :
    (s.deferCompensation task worker vars error).counters = s.counters.countOutcome .incident := by
  unfold System.deferCompensation
  simp only [counters_afterCommit]

theorem traffic_countOutcome (c : Counters) {outcome : Outcome} (settled : outcome ≠ .awaitingResponse) :
    (c.countOutcome outcome).traffic = c.traffic := by
  cases outcome with
  | awaitingResponse => exact absurd rfl settled
  | _ => rfl

theorem traffic_countResponse (c : Counters) : c.countResponse.traffic = c.traffic.plus 0 1 0 := by
  simp [Counters.countResponse, Counters.traffic, Traffic.plus]

theorem traffic_countWatchdog (c : Counters) (verdict : Verdict) :
    (c.countWatchdog (verdict = .fired)).traffic = c.traffic.plus 0 0 (hasFired (.ok verdict)).toNat := by
  cases verdict with
  | fired => simp [Counters.countWatchdog, Counters.traffic, Traffic.plus, hasFired]
  | _ => simp [Counters.countWatchdog, Counters.traffic, Traffic.plus, hasFired]

/-- No error of a processor leaves a task waiting for a response. -/
theorem settleError_settles (s : System) (task : LeasedTask) (registration : Registration) (worker : String)
    (error : ProcessorError) : (s.settleError task registration worker error).1 ≠ .awaitingResponse := by
  unfold System.settleError
  split
  · split <;> nofun
  · simp only
    split
    · nofun
    · split <;> nofun
  · nofun

theorem endProcess_settles (s : System) (call : ProcessorCall) (task : LeasedTask) (attempt : Attempt Variables) :
    (s.endProcess call task attempt).1 ≠ .awaitingResponse := by
  unfold System.endProcess
  cases attempt.result with
  | error error => exact s.settleError_settles task call.registration call.worker error
  | ok vars =>
    simp only
    split <;> nofun

/-- A task waits for a response if its request was sent. -/
theorem endRequest_awaits (s : System) (call : ProcessorCall) (task : LeasedTask)
    (attempt : Attempt (Option Instant)) :
    (s.endRequest call task attempt).1 = .awaitingResponse ↔ attempt.result.isOk = true := by
  unfold System.endRequest
  cases attempt.result with
  | error error =>
    exact iff_of_false (s.settleError_settles task call.registration call.worker error) nofun
  | ok named => exact iff_of_true rfl rfl

theorem traffic_endProcess (s : System) (call : ProcessorCall) (task : LeasedTask) (attempt : Attempt Variables) :
    (s.endProcess call task attempt).2.counters.traffic = s.counters.traffic := by
  rw [counters_endProcess]
  exact traffic_countOutcome _ (s.endProcess_settles call task attempt)

theorem traffic_endRequest (s : System) (call : ProcessorCall) (task : LeasedTask)
    (attempt : Attempt (Option Instant)) :
    (s.endRequest call task attempt).2.counters.traffic =
      s.counters.traffic.plus attempt.result.isOk.toNat 0 0 := by
  rw [counters_endRequest]
  cases sent : attempt.result.isOk with
  | true =>
    rw [(s.endRequest_awaits call task attempt).mpr sent]
    simp [Counters.countOutcome, Counters.traffic, Traffic.plus]
  | false =>
    rw [Bool.toNat_false, Traffic.plus_zero]
    refine traffic_countOutcome _ fun waits => ?_
    rw [(s.endRequest_awaits call task attempt).mp waits] at sent
    cases sent

/-- A response counts as handled if its sender is given no error. -/
theorem traffic_endRespond (s : System) (call : ProcessorCall) (task : ExternalTask)
    (attempt : Attempt (Json × Variables)) :
    (s.endRespond call task attempt).2.counters.traffic =
      s.counters.traffic.plus 0 (s.endRespond call task attempt).1.isOk.toNat 0 := by
  unfold System.endRespond
  split
  · next business _ =>
    have asked := s.counters_ask (.businessError task.id call.worker business.code business.message business.vars)
    split
    · next refusal t result =>
      rw [result] at asked
      exact (congrArg Counters.traffic asked).trans (Traffic.plus_zero _).symm
    · next value t result =>
      rw [result] at asked
      have counted : t.counters.countResponse.traffic = s.counters.countResponse.traffic :=
        congrArg (fun c : Counters => c.countResponse.traffic) asked
      exact counted.trans (traffic_countResponse s.counters)
  · exact (Traffic.plus_zero _).symm
  · next answer vars _ =>
    have asked := System.counters_ask { s with counters := s.counters.countResponse }
      (.complete task.id call.worker vars)
    simp only
    split
    · next value t result =>
      rw [result] at asked
      exact (congrArg Counters.traffic asked).trans (traffic_countResponse s.counters)
    · next refusal t result =>
      rw [result] at asked
      simp only
      rw [counters_deferCompensation]
      have raised : (t.counters.countOutcome .incident).traffic = t.counters.traffic := rfl
      rw [raised]
      exact (congrArg Counters.traffic asked).trans (traffic_countResponse s.counters)

theorem traffic_fireWatchdog (s : System) (payload : String) :
    (s.fireWatchdog payload).2.counters.traffic =
      s.counters.traffic.plus 0 0 (hasFired (s.fireWatchdog payload).1).toNat := by
  unfold System.fireWatchdog
  split
  · exact (Traffic.plus_zero _).symm
  · next watchdog _ =>
    have checked := (s.acts_checkWatchdog watchdog).counters
    split
    · next reason t result =>
      rw [result] at checked
      exact (congrArg Counters.traffic checked).trans (Traffic.plus_zero _).symm
    · next verdict t result =>
      rw [result] at checked
      have counted := traffic_countWatchdog t.counters verdict
      exact counted.trans (congrArg (Traffic.plus · 0 0 (hasFired (.ok verdict)).toNat)
        (congrArg Counters.traffic checked))

theorem counters_logTasks (s : System) (operation status : String) (tasks : List LeasedTask) :
    (tasks.foldl (fun s task => s.logTask operation task status) s).counters = s.counters := by
  induction tasks generalizing s with
  | nil => rfl
  | cons first rest ih => exact ih (s.logTask operation first status)

theorem traffic_leaseNow (s : System) (registration : Registration) :
    (s.leaseNow registration).2.counters.traffic = s.counters.traffic := by
  have asked := s.counters_ask (.lease (s.leaseRequest registration))
  unfold System.leaseNow
  split
  · next reason t result =>
    rw [result] at asked
    exact congrArg Counters.traffic asked
  · next t result =>
    rw [result] at asked
    exact congrArg Counters.traffic asked
  · next tasks t _ result =>
    rw [result] at asked
    simp only
    rw [counters_afterCommit, counters_logTasks]
    have same : t.counters.traffic = s.counters.traffic := congrArg Counters.traffic asked
    exact same

theorem traffic_leaseLogged (s : System) (registration : Registration) :
    (s.leaseLogged registration).counters.traffic = s.counters.traffic := by
  have leased := s.traffic_leaseNow registration
  unfold System.leaseLogged
  split
  · next number t result =>
    rw [result] at leased
    exact leased
  · next reason t result =>
    rw [result] at leased
    exact leased

theorem traffic_dispatch (s : System) (key : RegistrationKey) :
    (s.dispatch key).2.counters.traffic = s.counters.traffic := by
  unfold System.dispatch
  split
  · rfl
  · next registration _ => exact s.traffic_leaseNow registration

theorem counters_commit (s : System) : s.commit.2.counters = s.counters := by
  have submitted (held : List (String × Work)) (t : System) :
      (held.foldl (fun s (entry : String × Work) => s.submit entry.1 false entry.2) t).counters = t.counters := by
    induction held generalizing t with
    | nil => rfl
    | cons first rest ih => exact ih (t.submit first.1 false first.2)
  unfold System.commit
  split
  · rfl
  · next held _ => exact submitted held { s with gate := some [] }

theorem counters_register (s : System) (definitionKey topic : String) (lockTimeout : Option Span)
    (vars : VariableScope) (contract : Contract) :
    (s.register definitionKey topic lockTimeout vars contract).2.counters = s.counters := by
  unfold System.register
  split <;> rfl

theorem counters_operate (s : System) {kind : AnswerKind} (operation : Operation kind) :
    (s.operate operation).2.counters = s.counters := by
  cases operation with
  | scheduleJob due payload =>
    have asked := s.counters_ask (.scheduleJob due payload)
    unfold System.operate
    simp only
    split
    · next job t result =>
      rw [result] at asked
      exact asked
    · next reason t result =>
      rw [result] at asked
      exact asked
  | _ => exact s.counters_call _

theorem counters_respond (s : System) (task : String) (input : Json) :
    (s.respond task input).2.counters = s.counters := by
  have looked := s.counters_ask (.findTask task)
  unfold System.respond
  simp only
  split
  · next reason t result =>
    rw [result] at looked
    exact looked
  · next found t result =>
    rw [result] at looked
    split
    · exact looked
    · split
      · exact looked
      · split <;> exact looked

theorem counters_finishAction (s : System) (action : Nat) : (s.finishAction action).counters = s.counters := by
  unfold System.finishAction
  cases s.host.successor? action <;> rfl

theorem counters_finishCall (s : System) (call : ProcessorCall) : (s.finishCall call).counters = s.counters := by
  unfold System.finishCall
  cases call.action with
  | none => rfl
  | some action => exact s.counters_finishAction action

theorem traffic_process (s : System) (action : Option Nat) (task : LeasedTask) :
    (s.process action task).2.counters.traffic = s.counters.traffic := by
  unfold System.process
  simp only
  split
  · rw [counters_conclude, (s.acts_raiseIncident _ _ _ _).counters]
    rfl
  · rfl

theorem traffic_runAction (s : System) (action : Nat) :
    (s.runAction action).2.counters.traffic = s.counters.traffic := by
  have handed (tasks : List LeasedTask) (t : System) :
      (tasks.foldl (fun s task => s.runAsync "process" (.process task)) t).counters = t.counters := by
    induction tasks generalizing t with
    | nil => rfl
    | cons first rest ih => exact ih (t.runAsync "process" (.process first))
  unfold System.runAction
  split
  · rfl
  · split
    · rw [counters_finishAction]
      rfl
    · next registration _ =>
      rw [counters_finishAction]
      exact s.traffic_leaseLogged registration
    · rw [counters_finishAction]
      rfl
    · next tasks _ =>
      rw [counters_finishAction, handed]
    · next task _ =>
      have processed := s.traffic_process (some action) task
      split
      · next outcome t result =>
        rw [result] at processed
        rw [counters_finishAction]
        exact processed
      · next call t result =>
        rw [result] at processed
        exact processed
    · rw [counters_finishAction, (s.acts_compensate _ _ _ _).counters]

end System

end TaskLeasing
