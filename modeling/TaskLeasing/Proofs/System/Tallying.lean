import TaskLeasing.Proofs.System.Counting
import TaskLeasing.Proofs.System.Issuing
import TaskLeasing.Proofs.System.Passage

namespace TaskLeasing

/-- The counter of an outcome. -/
def Counters.of (c : Counters) : Outcome → UInt64
  | .completed => c.tasksCompleted
  | .businessError => c.businessErrors
  | .retryScheduled => c.retriesScheduled
  | .incident => c.incidentsRaised
  | .awaitingResponse => c.asyncRequestsSent

/-- The counts of tasks leased and of outcomes. -/
structure Tally where
  leased : UInt64
  outcomes : Outcome → UInt64

def Counters.tally (c : Counters) : Tally := ⟨c.tasksLeased, c.of⟩

def Tally.plus (t : Tally) (leased : Nat) (outcomes : List Outcome) : Tally :=
  ⟨t.leased + UInt64.ofNat leased, fun outcome => t.outcomes outcome + UInt64.ofNat (outcomes.count outcome)⟩

theorem Tally.plus_nil (t : Tally) : t.plus 0 [] = t := by simp [Tally.plus]

theorem Tally.plus_plus (t : Tally) (leased leased' : Nat) (outcomes outcomes' : List Outcome) :
    (t.plus leased outcomes).plus leased' outcomes' = t.plus (leased + leased') (outcomes ++ outcomes') := by
  simp only [Tally.plus, UInt64.ofNat_add, List.count_append, UInt64.add_assoc]

theorem tally_countOutcome (c : Counters) (outcome : Outcome) :
    (c.countOutcome outcome).tally = c.tally.plus 0 [outcome] := by
  have leased : (c.countOutcome outcome).tasksLeased = c.tasksLeased + UInt64.ofNat 0 := by
    cases outcome <;> simp [Counters.countOutcome]
  have counted : (c.countOutcome outcome).of = fun other => c.of other + UInt64.ofNat ([outcome].count other) := by
    funext other
    cases outcome <;> cases other <;> simp [Counters.countOutcome, Counters.of]
  rw [Counters.tally, leased, counted]
  rfl

theorem tally_countLeased (c : Counters) (tasks : Nat) :
    (c.countLeased (UInt64.ofNat tasks)).tally = c.tally.plus tasks [] := by
  simp [Counters.countLeased, Counters.tally, Tally.plus, Counters.of, funext_iff]

theorem tally_countResponse (c : Counters) : c.countResponse.tally = c.tally := rfl

theorem tally_countWatchdog (c : Counters) (fired : Bool) : (c.countWatchdog fired).tally = c.tally := by
  cases fired <;> rfl

/-- The task whose processing work is done with at once, for want of a processor. -/
def Work.unmet (work : Work) (result : Consequence) : List LeasedTask :=
  match work, result with
  | .process task, .nothing => [task]
  | _, _ => []

namespace System

variable {s : System}

/-- Whether the engine refuses the completion that a processor's response to a task comes to. -/
def refusesResponse (s : System) (call : ProcessorCall) (task : ExternalTask) :
    Attempt (Json × Variables) → Bool
  | .returned (_, vars) => !(s.ask (.complete task.id call.worker vars)).1.isOk
  | _ => false

/-- The leased tasks whose processing a move ends, with the outcomes: the one whose processor has answered, or one that
no processor was found for. -/
def concludedIn (s : System) : Move → List (LeasedTask × Outcome)
  | .answer number kind attempt =>
    match (s.answered? (.answer number kind attempt)).bind fun call => call.subject.attempt?,
        (s.endCall number kind attempt).1 with
    | some lease, .processed outcome => [(lease, outcome)]
    | _, _ => []
  | move =>
    ((s.taken? move).toList.flatMap fun work => work.unmet (s.step move).1).map fun lease => (lease, .incident)

/-- The tasks whose responses a move finds refused by the engine. -/
def rejectedIn (s : System) : Move → List ExternalTask
  | .answer number .respond attempt => match s.calls.find? fun call => call.number = number with
    | some call => match call.subject with
      | .respond task _ => if s.refusesResponse call task attempt then [task] else []
      | _ => []
    | none => []
  | _ => []

/-- The outcomes that a move counts. A refused response counts as an incident. -/
def outcomesIn (s : System) (move : Move) : List Outcome :=
  (s.concludedIn move).map Prod.snd ++ (s.rejectedIn move).map fun _ => .incident

theorem tally_conclude (s : System) (task : LeasedTask) (outcome : Outcome) :
    (s.conclude task outcome).2.counters.tally = s.counters.tally.plus 0 [outcome] :=
  tally_countOutcome s.counters outcome

theorem tally_endProcess (s : System) (call : ProcessorCall) (task : LeasedTask) (attempt : Attempt Variables) :
    (s.endProcess call task attempt).2.counters.tally =
      s.counters.tally.plus 0 [(s.endProcess call task attempt).1] := by
  rw [counters_endProcess, tally_countOutcome]

theorem tally_endRequest (s : System) (call : ProcessorCall) (task : LeasedTask)
    (attempt : Attempt (Option Instant)) : (s.endRequest call task attempt).2.counters.tally =
      s.counters.tally.plus 0 [(s.endRequest call task attempt).1] := by
  rw [counters_endRequest, tally_countOutcome]

/-- A response counts for an outcome only if its completion is refused, and then for an incident. -/
theorem tally_endRespond (s : System) (call : ProcessorCall) (task : ExternalTask)
    (attempt : Attempt (Json × Variables)) :
    (s.endRespond call task attempt).2.counters.tally =
      s.counters.tally.plus 0 (if s.refusesResponse call task attempt then [.incident] else []) := by
  have silent (t : System) (same : t.counters.tally = s.counters.tally) :
      t.counters.tally = s.counters.tally.plus 0 [] := same.trans (Tally.plus_nil _).symm
  cases attempt with
  | panicked reason => exact silent s rfl
  | failed error =>
    refine silent _ ?_
    unfold System.endRespond
    cases error with
    | business business =>
      have asked := s.counters_ask (.businessError task.id call.worker business.code business.message business.vars)
      simp only [Attempt.result]
      split
      · next refusal t result =>
        rw [result] at asked
        exact congrArg Counters.tally asked
      · next value t result =>
        rw [result] at asked
        exact (tally_countResponse _).trans (congrArg Counters.tally asked)
    | retryable failure => rfl
    | failure chain => rfl
  | returned answer =>
    have asked := System.counters_ask { s with counters := s.counters.countResponse }
      (.complete task.id call.worker answer.2)
    have decided : s.refusesResponse call task (.returned answer) =
        !(System.ask { s with counters := s.counters.countResponse }
          (.complete task.id call.worker answer.2)).1.isOk := rfl
    rw [decided]
    unfold System.endRespond
    simp only [Attempt.result]
    split
    · next value t result =>
      rw [result] at asked ⊢
      exact silent t ((congrArg Counters.tally asked).trans (tally_countResponse _))
    · next refusal t result =>
      rw [result] at asked ⊢
      simp only [counters_deferCompensation, tally_countOutcome]
      exact congrArg (Tally.plus · 0 [.incident])
        ((congrArg Counters.tally asked).trans (tally_countResponse s.counters))

theorem tally_fireWatchdog (s : System) (payload : String) :
    (s.fireWatchdog payload).2.counters.tally = s.counters.tally := by
  unfold System.fireWatchdog
  split
  · rfl
  · next watchdog _ =>
    have checked := (s.acts_checkWatchdog watchdog).counters
    split
    · next reason t result =>
      rw [result] at checked
      exact congrArg Counters.tally checked
    · next verdict t result =>
      rw [result] at checked
      exact (tally_countWatchdog _ _).trans (congrArg Counters.tally checked)

theorem tally_runJob (s : System) (job : String) : (s.runJob job).counters.tally = s.counters.tally := by
  unfold System.runJob
  split
  · rfl
  · simp only
    split
    · split
      · exact s.tally_fireWatchdog _
      · rfl
    · rfl
    · rfl

/-- A lease counts the tasks that it is given. -/
theorem tally_leaseNow (s : System) (registration : Registration) :
    (s.leaseNow registration).2.counters.tally = s.counters.tally.plus (s.leaseAsk registration).leased.length [] := by
  have asked := s.counters_ask (.lease (s.leaseRequest registration))
  unfold System.leaseNow leaseAsk
  split
  · next reason t result =>
    rw [result] at asked ⊢
    exact (congrArg Counters.tally asked).trans (Tally.plus_nil _).symm
  · next t result =>
    rw [result] at asked ⊢
    exact (congrArg Counters.tally asked).trans (Tally.plus_nil _).symm
  · next tasks t _ result =>
    rw [result] at asked ⊢
    simp only
    rw [counters_afterCommit, counters_logTasks, tally_countLeased]
    exact congrArg (Tally.plus · tasks.length []) (congrArg Counters.tally asked)

theorem tally_leaseLogged (s : System) (registration : Registration) :
    (s.leaseLogged registration).counters.tally = s.counters.tally.plus (s.leaseAsk registration).leased.length [] := by
  have leased := s.tally_leaseNow registration
  unfold System.leaseLogged
  split
  · next number t result =>
    rw [result] at leased
    exact leased
  · next reason t result =>
    rw [result] at leased
    exact leased

theorem tally_dispatch (s : System) (key : RegistrationKey) :
    (s.dispatch key).2.counters.tally = s.counters.tally.plus (s.leasedIn (.dispatch key)).length [] := by
  unfold System.dispatch leasedIn
  simp only [leasesFor?]
  cases s.registry.lookup key with
  | none => exact (Tally.plus_nil _).symm
  | some registration => exact s.tally_leaseNow registration

/-- A leased task is brought to a processor, or ends in an incident at once. -/
theorem process_tally (s : System) (action : Option Nat) (task : LeasedTask) :
    (∃ t, s.process action task = (.finished .incident, t) ∧ t.counters.tally = s.counters.tally.plus 0 [.incident]) ∨
      ∃ call t, s.process action task = (.calling call, t) ∧ call.subject.attempt? = some task ∧
        t.counters = s.counters := by
  unfold System.process
  simp only
  split
  · refine .inl ⟨_, rfl, ?_⟩
    have raised := (s.acts_raiseIncident task.id s.settings.workerId
      ("No processor registered for " ++ (RegistrationKey.mk task.definitionKey task.topic).text)
      ("No processor registered for " ++ (RegistrationKey.mk task.definitionKey task.topic).text)).counters
    rw [tally_conclude, raised]
  · next registration _ =>
    refine .inr ⟨_, _, rfl, ?_, rfl⟩
    cases registration.contract <;> rfl

/-- What comes of an action that runs: the tasks that it leases are counted, and so is the incident of a task that it
is done with at once; a task whose processing it begins otherwise is at its processor. -/
structure Runs (s : System) (work : Work) (result : Consequence × System) : Prop where
  tally : result.2.counters.tally = s.counters.tally.plus
    (work.leasesFor?.elim [] fun registration => (s.leaseAsk registration).leased).length
    ((work.unmet result.1).map fun _ => Outcome.incident)
  begun : work.begun = (result.1.call?.bind fun call => call.subject.attempt?).toList ++ work.unmet result.1

theorem runs_runAction (s : System) {action : Nat} {a : HostAction Work} (runs : s.host.running? action = some a) :
    s.Runs a.work (s.runAction action) := by
  have quiet {t : System} {work : Work} (same : t.counters = s.counters) (unleased : work.leasesFor? = none)
      (other : work.begun = []) : s.Runs work (.nothing, t.finishAction action) := by
    have unmet : work.unmet .nothing = [] := by
      cases work with
      | process lease => cases other
      | _ => rfl
    refine ⟨?_, by rw [other, unmet]; rfl⟩
    simp only [counters_finishAction, same, unleased, unmet]
    exact (Tally.plus_nil _).symm
  have handed (tasks : List LeasedTask) (t : System) :
      (tasks.foldl (fun s task => s.runAsync "process" (.process task)) t).counters = t.counters := by
    induction tasks generalizing t with
    | nil => rfl
    | cons first rest ih => exact ih (t.runAsync "process" (.process first))
  unfold System.runAction
  simp only [runs]
  cases work : a.work with
  | deferLease registration => exact quiet rfl rfl rfl
  | lease registration =>
    refine ⟨?_, rfl⟩
    simp only [counters_finishAction]
    exact s.tally_leaseLogged registration
  | deferRetry registration delay => exact quiet rfl rfl rfl
  | handOut tasks => exact quiet (handed tasks s) rfl rfl
  | process task =>
    simp only
    rcases s.process_tally (some action) task with ⟨t, finished, tally⟩ | ⟨call, t, calling, own, same⟩
    · rw [finished]
      refine ⟨?_, rfl⟩
      simp only [counters_finishAction]
      exact tally
    · rw [calling]
      refine ⟨(congrArg Counters.tally same).trans (Tally.plus_nil _).symm, ?_⟩
      simp only [Consequence.call?, Option.bind_some, own]
      rfl
  | compensate task worker vars error => exact quiet (s.acts_compensate task worker vars error).counters rfl rfl

end System

end TaskLeasing
