import TaskLeasing.Proofs.Engine.Tending
import TaskLeasing.Proofs.System.Asking
import TaskLeasing.System.Step

namespace TaskLeasing

/-- A call that leases no task, leaves none retries, and does not switch the engine off. -/
def Operation.Tame {kind : AnswerKind} : Operation kind → Prop
  | .lease _ => False
  | .failure _ _ report => report.retries = 0
  | .setAvailable available => available = true
  | _ => True

theorem Operation.Ends.tame {task : String} {kind : AnswerKind} {operation : Operation kind}
    (ends : operation.Ends task) : operation.Tame := by
  cases operation with
  | complete id worker vars => trivial
  | businessError id worker code message vars => trivial
  | _ => cases ends

/-- What the dispatcher does is made of acts. It takes notes, counts, calls its engine, and leaves work to be done
after commit. Acts of which the calls, the works and the counting are allowed lead from one state to another. -/
inductive System.Acts (asks : (kind : AnswerKind) → Operation kind → Prop) (works : Work → Prop) (counts : Prop)
    (s : System) : System → Prop
  | done : s.Acts asks works counts s
  | note {t : System} (acts : s.Acts asks works counts t) {note : Note}
      (quiet : (JournalEntry.mk t.now note).asked? = none) : s.Acts asks works counts (t.note note)
  | count {t : System} (acts : s.Acts asks works counts t) (allowed : counts) (counters : Counters) :
      s.Acts asks works counts { t with counters := counters }
  | ask {t : System} (acts : s.Acts asks works counts t) {kind : AnswerKind} {operation : Operation kind}
      (allowed : asks kind operation) : s.Acts asks works counts (t.ask operation).2
  | defer {t : System} (acts : s.Acts asks works counts t) (label : String) (work : Work) (allowed : works work) :
      s.Acts asks works counts (t.afterCommit label work)

/-- Work that leases again for a registration. -/
def Work.RetriesFor (registration : Registration) : Work → Prop
  | .deferRetry other _ => other = registration
  | _ => False

def Work.Compensates : Work → Prop
  | .compensate .. => True
  | _ => False

/-- Acts that call the engine tamely, and are neither counted nor leave anything to be done. -/
abbrev System.ActsTamely (s after : System) : Prop :=
  s.Acts (fun _ operation => operation.Tame) (fun _ => False) False after

namespace System

namespace Acts

variable {s middle after : System} {asks more : (kind : AnswerKind) → Operation kind → Prop}
  {works others : Work → Prop} {counts count : Prop}

theorem log (acts : s.Acts asks works counts after) (record : LogRecord) :
    s.Acts asks works counts (after.log record) := acts.note rfl

theorem trans (first : s.Acts asks works counts middle) (second : middle.Acts asks works counts after) :
    s.Acts asks works counts after := by
  induction second with
  | done => exact first
  | note _ quiet ih => exact ih.note quiet
  | count _ allowed counters ih => exact ih.count allowed counters
  | ask _ allowed ih => exact ih.ask allowed
  | defer _ label work allowed ih => exact ih.defer label work allowed

theorem mono (acts : s.Acts asks works counts after)
    (moreAsks : ∀ kind operation, asks kind operation → more kind operation)
    (moreWorks : ∀ work, works work → others work) (moreCounts : counts → count) :
    s.Acts more others count after := by
  induction acts with
  | done => exact .done
  | note _ quiet ih => exact ih.note quiet
  | count _ allowed counters ih => exact ih.count (moreCounts allowed) counters
  | ask _ allowed ih => exact ih.ask (moreAsks _ _ allowed)
  | defer _ label work allowed ih => exact ih.defer label work (moreWorks work allowed)

/-- Tame acts may be among others. -/
theorem tamely (acts : s.Acts asks works counts middle)
    (tame : ∀ kind operation, operation.Tame → asks kind operation) (second : middle.ActsTamely after) :
    s.Acts asks works counts after :=
  acts.trans (second.mono tame (fun _ => False.elim) False.elim)

end Acts

theorem acts_report (s : System) (task worker : String) (report : FailureReport) :
    s.Acts (fun _ _ => True) (fun _ => False) False (s.report task worker report).2 := by
  have asked : s.Acts (fun _ _ => True) (fun _ => False) False (s.ask (.failure task worker report)).2 :=
    Acts.done.ask trivial
  unfold System.report
  split
  · next value t result =>
    rw [result] at asked
    exact asked
  · next reason t result =>
    rw [result] at asked
    exact asked.log _

theorem acts_raiseIncident (s : System) (task worker message details : String) :
    s.ActsTamely (s.raiseIncident task worker message details) := by
  have terminal : (Operation.failure task worker (.terminal message details)).Tame := Eq.refl (0 : UInt32)
  have asked : s.ActsTamely (s.ask (.failure task worker (.terminal message details))).2 := Acts.done.ask terminal
  unfold System.raiseIncident System.report
  split
  · next value t result =>
    rw [result] at asked
    exact asked
  · next reason t result =>
    rw [result] at asked
    exact asked.log _

/-- Work that leases again after a retryable failure, once the delay is over that is decided on. -/
def RetriesAfter (s : System) (task : LeasedTask) (registration : Registration) (error : ProcessorError) (work : Work) :
    Prop :=
  ∃ failure, error = .retryable failure ∧
    work = .deferRetry registration (nextRetry failure.maxAttempts task.retries (s.backoff failure)).delay

/-- Work that makes up for a completion that the engine refuses. -/
def MakesUp (s : System) (call : ProcessorCall) (task : ExternalTask) (work : Work) : Prop :=
  ∃ vars refusal, (s.ask (.complete task.id call.worker vars)).1 = .error refusal ∧
    work = .compensate task call.worker vars refusal

/-- An error is settled by calls of the engine, and by a retry after its delay if it is retryable. -/
theorem acts_settleError_retry (s : System) (task : LeasedTask) (registration : Registration) (worker : String)
    (error : ProcessorError) : s.Acts (fun _ _ => True) (s.RetriesAfter task registration error) False
      (s.settleError task registration worker error).2 := by
  unfold System.settleError
  split
  · next business =>
    have asked : s.Acts (fun _ _ => True) (s.RetriesAfter task registration (.business business)) False
        (s.ask (.businessError task.id worker business.code business.message business.vars)).2 :=
      Acts.done.ask trivial
    split
    · next value t result =>
      rw [result] at asked
      exact asked
    · next refusal t result =>
      rw [result] at asked
      exact asked.tamely (fun _ _ _ => trivial) (t.acts_raiseIncident _ _ _ _)
  · next failure =>
    simp only
    have retries : s.RetriesAfter task registration (.retryable failure) (.deferRetry registration
        (nextRetry failure.maxAttempts task.retries (s.backoff failure)).delay) := ⟨failure, rfl, rfl⟩
    generalize nextRetry failure.maxAttempts task.retries (s.backoff failure) = decision at retries ⊢
    have reported : s.Acts (fun _ _ => True) (s.RetriesAfter task registration (.retryable failure)) False
        (s.report task.id worker ⟨failure.message, (ProcessorError.retryable failure).incidentDetails,
          decision.retriesLeft, decision.delay⟩).2 :=
      (s.acts_report _ _ _).mono (fun _ _ => id) (fun _ => False.elim) id
    split
    · next t result =>
      rw [result] at reported
      exact reported
    · next t result =>
      rw [result] at reported
      split
      · exact reported.defer "retry" _ retries
      · exact reported
  · exact Acts.done.tamely (fun _ _ _ => trivial) (s.acts_raiseIncident _ _ _ _)

theorem acts_settleError (s : System) (task : LeasedTask) (registration : Registration) (worker : String)
    (error : ProcessorError) : s.Acts (fun _ _ => True) (Work.RetriesFor registration) False
      (s.settleError task registration worker error).2 :=
  (s.acts_settleError_retry task registration worker error).mono (fun _ _ => id)
    (fun _ ⟨_, _, retries⟩ => retries ▸ rfl) id

theorem acts_armWatchdog (s : System) (task : LeasedTask) (timeout : Option Span) (named : Option Instant) :
    s.ActsTamely (s.armWatchdog task timeout named) := by
  unfold System.armWatchdog
  split
  · exact .done
  · next due _ =>
    have tame : (Operation.scheduleJob due ⟨watchdogJobType, (Watchdog.mk task.id task.lockExpiry).payload⟩).Tame :=
      trivial
    have asked : s.ActsTamely (s.ask
      (.scheduleJob due ⟨watchdogJobType, (Watchdog.mk task.id task.lockExpiry).payload⟩)).2 := Acts.done.ask tame
    simp only
    split
    · next job t result =>
      rw [result] at asked
      exact asked.note rfl
    · next reason t result =>
      rw [result] at asked
      exact asked.log _

theorem acts_compensate (s : System) (task : ExternalTask) (worker : String) (vars : Variables)
    (error : EngineError) : s.ActsTamely (s.compensate task worker vars error) := by
  unfold System.compensate
  refine Acts.trans ?_ (acts_raiseIncident _ _ _ _ _)
  split
  · exact .done
  · have tame : (Operation.setVariables task.execution vars).Tame := trivial
    have asked : s.ActsTamely (s.ask (.setVariables task.execution vars)).2 := Acts.done.ask tame
    split
    · next value t result =>
      rw [result] at asked
      exact asked
    · next refusal t result =>
      rw [result] at asked
      exact asked.log _

/-- A response that has ended is counted, and the engine is told of it. If the engine refuses the completion, a
compensation is left to be made. -/
theorem acts_endRespond_refused (s : System) (call : ProcessorCall) (task : ExternalTask)
    (attempt : Attempt (Json × Variables)) :
    s.Acts (fun _ operation => operation.Ends task.id) (s.MakesUp call task) True
      (s.endRespond call task attempt).2 := by
  have ask {t : System} (acts : s.Acts (fun _ operation => operation.Ends task.id) (s.MakesUp call task) True t)
      (operation : Operation .done) (ends : operation.Ends task.id) :
      s.Acts (fun _ operation => operation.Ends task.id) (s.MakesUp call task) True (t.ask operation).2 := acts.ask ends
  unfold System.endRespond
  split
  · next business _ =>
    have told := ask .done (.businessError task.id call.worker business.code business.message business.vars) rfl
    split
    · next refusal t result =>
      rw [result] at told
      exact told
    · next value t result =>
      rw [result] at told
      exact told.count trivial _
  · exact .done
  · next answer vars _ =>
    have told := ask (Acts.done.count trivial s.counters.countResponse) (.complete task.id call.worker vars) rfl
    simp only
    split
    · next value t result =>
      rw [result] at told
      exact told
    · next refusal t result =>
      have refused : (s.ask (.complete task.id call.worker vars)).1 = .error refusal := congrArg Prod.fst result
      rw [result] at told
      exact (told.defer "incident" _ ⟨vars, refusal, refused, rfl⟩).count trivial _

theorem acts_endRespond (s : System) (call : ProcessorCall) (task : ExternalTask)
    (attempt : Attempt (Json × Variables)) :
    s.Acts (fun _ operation => operation.Tame) Work.Compensates True (s.endRespond call task attempt).2 :=
  (s.acts_endRespond_refused call task attempt).mono (fun _ _ ends => ends.tame)
    (fun _ ⟨_, _, _, compensates⟩ => compensates ▸ trivial) id

theorem acts_checkWatchdog (s : System) (watchdog : Watchdog) : s.ActsTamely (s.checkWatchdog watchdog).2 := by
  have tame : (Operation.findTask watchdog.task).Tame := trivial
  have asked : s.ActsTamely (s.ask (.findTask watchdog.task)).2 := Acts.done.ask tame
  unfold System.checkWatchdog
  split
  · next reason t result =>
    rw [result] at asked
    exact asked
  · next t result =>
    rw [result] at asked
    exact asked
  · next task t result =>
    rw [result] at asked
    split
    · exact asked
    · split
      · exact asked
      · split
        · exact asked
        · generalize "No response received for external task " ++ task.id ++ " (activity " ++ task.activity ++
            ") while locked until " ++ watchdog.lockExpiry.display = details
          have terminal : (Operation.failure task.id t.settings.workerId
              (.terminal (t.timeoutMessage task) details)).Tame := Eq.refl (0 : UInt32)
          have struck := asked.ask terminal
          simp only
          split
          · next reason u result' =>
            rw [result'] at struck
            exact struck
          · next value u result' =>
            rw [result'] at struck
            exact struck

theorem acts_fireWatchdog (s : System) (payload : String) :
    s.Acts (fun _ operation => operation.Tame) (fun _ => False) True (s.fireWatchdog payload).2 := by
  unfold System.fireWatchdog
  split
  · exact .done
  · next watchdog _ =>
    have checked : s.Acts (fun _ operation => operation.Tame) (fun _ => False) True (s.checkWatchdog watchdog).2 :=
      Acts.done.tamely (fun _ _ => id) (s.acts_checkWatchdog watchdog)
    split
    · next reason t result =>
      rw [result] at checked
      exact checked
    · next verdict t result =>
      rw [result] at checked
      exact checked.count trivial _

/-- A sweep leaves a lease to be made for each registration. -/
theorem acts_sweep (s : System) : s.Acts (fun _ _ => False)
    (fun work => ∃ registration ∈ s.registry.entries, work = .deferLease registration) False s.sweep.2 := by
  have deferred {works : Work → Prop} (entries : List Registration) (t : System)
      (acts : s.Acts (fun _ _ => False) works False t) (allowed : ∀ entry ∈ entries, works (.deferLease entry)) :
      s.Acts (fun _ _ => False) works False
        (entries.foldl (fun s registration => s.afterCommit "fetch_and_lock" (.deferLease registration)) t) := by
    induction entries generalizing t with
    | nil => exact acts
    | cons first rest ih =>
      exact ih _ (acts.defer "fetch_and_lock" _ (allowed first (List.mem_cons_self ..))) fun entry member =>
        allowed entry (List.mem_cons_of_mem _ member)
  exact deferred s.registry.entries s .done fun entry member => ⟨entry, member, rfl⟩

end System

end TaskLeasing
