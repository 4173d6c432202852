import TaskLeasing.Proofs.System.Hosting
import TaskLeasing.Proofs.System.Inquiry

namespace TaskLeasing

theorem Operation.Tame.request? {ask : Asked} (tame : ask.operation.Tame) : ask.request? = none := by
  obtain ⟨kind, operation, result⟩ := ask
  cases operation with
  | lease request => cases tame
  | _ => rfl

/-- Work that has the host do more work, and does nothing else. -/
def Work.isPassing : Work → Bool
  | .deferLease _ => true
  | .deferRetry _ _ => true
  | .handOut _ => true
  | _ => false

namespace System

/-- The grounds on which the engine is called in a move, given the works that have been run: another party calls it or
has the dispatcher call it, a processor answers, or the host runs work that leases, processes or compensates. Work that
leases comes after work that defers the lease. An event, a sweep, a retry that is still to come, and a response whose
completion is refused, are no grounds. -/
inductive Grounds (s : System) (ran : List Work) (move : Move) : Asked → Prop
  | operates {kind : AnswerKind} {operation : Operation kind} (calls : move = .operate kind operation) :
      Grounds s ran move ⟨kind, operation, (s.operate operation).1⟩
  | dispatches {key : RegistrationKey} {registration : Registration} (calls : move = .dispatch key)
      (registered : s.registry.lookup key = some registration) : Grounds s ran move (s.leaseAsk registration)
  | checks {ask : Asked} (calls : (∃ task input, move = .respond task input) ∨
      (∃ payload, move = .fireWatchdog payload) ∨ ∃ job, move = .runJob job)
      (tame : ask.operation.Tame) : Grounds s ran move ask
  | answers {call : ProcessorCall} {lease : LeasedTask} {ask : Asked} (answered : s.answered? move = some call)
      (attempt : call.subject.attempt? = some lease) (unleased : ask.request? = none) : Grounds s ran move ask
  | responds {call : ProcessorCall} {task : ExternalTask} {input : Json} {ask : Asked}
      (answered : s.answered? move = some call) (subject : call.subject = .respond task input)
      (ends : ask.operation.Ends task.id) : Grounds s ran move ask
  | leases {registration : Registration} (taken : s.taken? move = some (.lease registration))
      (deferred : .deferLease registration ∈ ran ∨ ∃ delay, .deferRetry registration delay ∈ ran) :
      Grounds s ran move (s.leaseAsk registration)
  | processes {lease : LeasedTask} {ask : Asked}
      (begins : move = .process lease ∨ s.taken? move = some (.process lease)) (tame : ask.operation.Tame) :
      Grounds s ran move ask
  | compensates {task : ExternalTask} {worker : String} {vars : Variables} {refusal : EngineError} {ask : Asked}
      (taken : s.taken? move = some (.compensate task worker vars refusal)) (tame : ask.operation.Tame) :
      Grounds s ran move ask

variable {s after : System} {ran : List Work} {move : Move}

/-- What acts ask of the engine is among what is allowed to them. -/
theorem Acts.made {asks : (kind : AnswerKind) → Operation kind → Prop} {works : Work → Prop} {counts : Prop}
    (acts : s.Acts asks works counts after) :
    ∃ made : List Asked, (∀ ask ∈ made, asks ask.kind ask.operation) ∧ s.Asks after made := by
  have onwards {middle after : System}
      (told : ∃ made : List Asked, (∀ ask ∈ made, asks ask.kind ask.operation) ∧ s.Asks middle made)
      (silent : middle.Asks after []) :
      ∃ made : List Asked, (∀ ask ∈ made, asks ask.kind ask.operation) ∧ s.Asks after made := by
    obtain ⟨made, allowed, asked⟩ := told
    have both := asked.trans silent
    rw [List.append_nil] at both
    exact ⟨made, allowed, both⟩
  induction acts with
  | done => exact ⟨[], by simp, .refl s⟩
  | note _ quiet ih => exact onwards ih (does_note _ quiet).asks
  | count _ _ counters ih => exact onwards ih (does_count _ counters).asks
  | @ask t _ kind operation permitted ih =>
    obtain ⟨made, allowed, asked⟩ := ih
    exact ⟨made ++ [⟨kind, operation, (t.ask operation).1⟩], List.forall_mem_append.mpr ⟨allowed,
      List.forall_mem_singleton.mpr permitted⟩, asked.trans (t.does_ask operation).asks⟩
  | defer _ label work _ ih => exact onwards ih (does_afterCommit _ label work).asks

/-- Work that the host is given more work by asks nothing of the engine. -/
theorem asks_runAction_silent {action : Nat} {a : HostAction Work} (runs : s.host.running? action = some a)
    (passes : a.work.isPassing = true) : s.Asks (s.runAction action).2 [] := by
  unfold System.runAction
  simp only [runs]
  cases work : a.work with
  | deferLease registration => exact (s.asks_runAsync _ _).trans (asks_finishAction _ action)
  | deferRetry registration delay => exact (s.asks_runAfter _ _ _).trans (asks_finishAction _ action)
  | handOut tasks => exact (s.asks_runAsyncs _ tasks).trans (asks_finishAction _ action)
  | _ =>
    rw [work] at passes
    cases passes

theorem asksIn_silent (asked : (s.step move).2.asked = s.asked)
    (others : ∀ kind operation, move ≠ .operate kind operation) : s.asksIn move = [] :=
  asksIn_eq move asked others

theorem TellsTamely.asksIn (tells : s.TellsTamely (s.step move).2)
    (others : ∀ kind operation, move ≠ .operate kind operation) : ∀ ask ∈ s.asksIn move, ask.operation.Tame := by
  obtain ⟨asks, tame, asked⟩ := tells
  rwa [asksIn_eq move asked others]

/-- A response that ends asks the engine to end its task, and nothing else. -/
theorem asks_endCall_respond {number : Nat} {call : ProcessorCall} {task : ExternalTask} {input : Json}
    (pending : s.calls.find? (fun call => call.number = number) = some call)
    (subject : call.subject = .respond task input) (attempt : Attempt CallKind.respond.Value) :
    ∀ ask ∈ s.asksIn (.answer number .respond attempt), ask.operation.Ends task.id := by
  obtain ⟨made, ends, asked⟩ := ((s.dropCall number).acts_endRespond_refused call task attempt).made
  have stepped : (s.step (.answer number .respond attempt)).2 =
      ((s.dropCall number).endRespond call task attempt).2.finishCall call :=
    congrArg Prod.snd (endCall_respond pending subject attempt)
  have told : (s.step (.answer number .respond attempt)).2.asked = made.reverse ++ s.asked := by
    rw [stepped]
    exact (asks_finishCall _ call).asked.trans asked.asked
  rwa [asksIn_eq (.answer number .respond attempt) told (by simp)]

theorem grounds_answer (s : System) (number : Nat) (kind : CallKind) (attempt : Attempt kind.Value) :
    ∀ ask ∈ s.asksIn (.answer number kind attempt), s.Grounds ran (.answer number kind attempt) ask := by
  cases answered : s.answered? (.answer number kind attempt) with
  | none =>
    have still : (s.step (.answer number kind attempt)).2 = s := endCall_unanswered answered
    rw [asksIn_silent (congrArg System.asked still) (by simp)]
    exact fun ask among => by cases among
  | some call =>
    obtain ⟨pending, same⟩ := Option.filter_eq_some_iff.mp answered
    have asked : kind = call.subject.kind := (of_decide_eq_true same).symm
    cases attempted : call.subject.attempt? with
    | some lease =>
      -- whatever an attempt comes to, no lease is made for it here
      have inquires := s.inquires_step (.answer number kind attempt) (by simp)
      have unleased : s.leasesFor? (.answer number kind attempt) = none := rfl
      intro ask among
      refine .answers answered attempted ?_
      generalize s.asksIn (.answer number kind attempt) = asks at inquires among
      cases inquires with
      | leases leases =>
        rw [unleased] at leases
        cases leases
      | fails =>
        rw [List.mem_singleton.mp among]
        rfl
      | tamely _ tame => exact Operation.Tame.request? (tame ask among)
    | none =>
      cases subject : call.subject with
      | respond task input =>
        obtain rfl : kind = .respond := by rw [asked, subject]; rfl
        exact fun ask among => .responds answered subject (asks_endCall_respond pending subject attempt ask among)
      | _ =>
        rw [subject] at attempted
        cases attempted

/-- Every call of the engine that belongs to a move has its grounds. -/
theorem grounds_step (s : System) {move : Move} (deferred : ∀ registration,
    s.taken? move = some (.lease registration) →
      .deferLease registration ∈ ran ∨ ∃ delay, .deferRetry registration delay ∈ ran) :
    ∀ ask ∈ s.asksIn move, s.Grounds ran move ask := by
  have silent (asked : (s.step move).2.asked = s.asked) (others : ∀ kind operation, move ≠ .operate kind operation) :
      ∀ ask ∈ s.asksIn move, s.Grounds ran move ask := by
    rw [asksIn_silent asked others]
    exact fun ask among => by cases among
  have tamely (tells : s.TellsTamely (s.step move).2) (others : ∀ kind operation, move ≠ .operate kind operation)
      (grounds : ∀ ask : Asked, ask.operation.Tame → s.Grounds ran move ask) :
      ∀ ask ∈ s.asksIn move, s.Grounds ran move ask := fun ask among => grounds ask (tells.asksIn others ask among)
  have takes {action : Nat} (up : move = .start action ∨ move = .resume action) :
      ∀ ask ∈ s.asksIn move, s.Grounds ran move ask := by
    have others : ∀ kind operation, move ≠ .operate kind operation := by
      rcases up with rfl | rfl <;> simp
    rcases s.takeUp_cases up with ⟨host, a, taken, runs, leases, _, stepped⟩ | ⟨_, _, host, _, stepped⟩
    · have told (unleased : a.work.leasesFor? = none) : s.TellsTamely (s.step move).2 := by
        rw [stepped]
        exact tells_runAction_tamely (s := { s with host := host }) runs unleased
      have quiet (asks : System.Asks { s with host := host } (System.runAction { s with host := host } action).2 []) :
          ∀ ask ∈ s.asksIn move, s.Grounds ran move ask := by
        refine silent ?_ others
        rw [stepped]
        exact asks.asked
      cases work : a.work with
      | lease registration =>
        rw [work] at taken leases
        rw [asksIn_leases leases]
        exact List.forall_mem_singleton.mpr (.leases taken (deferred registration taken))
      | process lease =>
        rw [work] at taken
        exact tamely (told (by rw [work]; rfl)) others fun ask tame => .processes (.inr taken) tame
      | compensate task worker vars refusal =>
        rw [work] at taken
        exact tamely (told (by rw [work]; rfl)) others fun ask tame => .compensates taken tame
      | _ => exact quiet (asks_runAction_silent runs (by rw [work]; rfl))
    · exact silent (by rw [stepped]; rfl) others
  cases move with
  | operate kind operation =>
    intro ask among
    rw [List.mem_singleton.mp among]
    exact .operates rfl
  | register definitionKey topic lockTimeout vars contract =>
    exact silent (s.asks_register definitionKey topic lockTimeout vars contract).asked (by simp)
  | sweep => exact silent s.does_sweep.asks.asked (by simp)
  | dispatch key =>
    cases registered : s.registry.lookup key with
    | none =>
      refine silent ?_ (by simp)
      simp only [System.step, System.dispatch, registered]
    | some registration =>
      have leases : s.leasesFor? (.dispatch key) = some registration := registered
      rw [asksIn_leases leases]
      exact List.forall_mem_singleton.mpr (.dispatches rfl registered)
  | process task =>
    refine tamely ?_ (by simp) fun ask tame => .processes (.inl rfl) tame
    rw [step_process]
    exact s.tells_process none task
  | respond task input =>
    refine tamely ?_ (by simp) fun ask tame => .checks (.inl ⟨task, input, rfl⟩) tame
    rw [step_respond]
    exact s.tells_respond task input
  | fireWatchdog payload =>
    exact tamely (s.tames_fireWatchdog payload).tellsTamely (by simp) fun ask tame =>
      .checks (.inr (.inl ⟨payload, rfl⟩)) tame
  | setLockTimeout timeout =>
    refine silent ?_ (by simp)
    simp only [System.step]
    split <;> rfl
  | answer number kind attempt => exact s.grounds_answer number kind attempt
  | start action => exact takes (.inl rfl)
  | resume action => exact takes (.inr rfl)
  | wake action =>
    refine silent ?_ (by simp)
    simp only [System.step]
    split <;> rfl
  | commit => exact silent s.asks_commit.asked (by simp)
  | runJob job => exact tamely (s.tells_runJob job) (by simp) fun ask tame => .checks (.inr (.inr ⟨job, rfl⟩)) tame
  | _ => exact silent rfl (by simp)

end System

end TaskLeasing
