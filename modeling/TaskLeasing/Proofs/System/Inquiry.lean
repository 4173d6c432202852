import TaskLeasing.Proofs.System.Passage

namespace TaskLeasing

/-- A part of a move in which the dispatcher makes tame calls of the engine alone. -/
def System.TellsTamely (s after : System) : Prop :=
  ∃ asks : List Asked, (∀ ask ∈ asks, ask.operation.Tame) ∧ after.asked = asks.reverse ++ s.asked

namespace System

variable {s middle after : System}

theorem Asks.tellsTamely (silent : s.Asks after []) : s.TellsTamely after := ⟨[], by simp, silent.asked⟩

theorem Tames.tellsTamely (tames : s.Tames after) : s.TellsTamely after := by
  obtain ⟨asks, tame, does⟩ := tames
  exact ⟨asks, tame, does.asked⟩

theorem TellsTamely.then (first : s.TellsTamely middle) (second : middle.Asks after []) : s.TellsTamely after := by
  obtain ⟨asks, tame, asked⟩ := first
  exact ⟨asks, tame, second.asked.trans asked⟩

theorem TellsTamely.of_asks (first : s.Asks middle []) (second : middle.TellsTamely after) : s.TellsTamely after := by
  obtain ⟨asks, tame, asked⟩ := second
  exact ⟨asks, tame, by rw [asked, first.asked]; rfl⟩

theorem tells_process (s : System) (action : Option Nat) (task : LeasedTask) :
    s.TellsTamely (s.process action task).2 := by
  unfold System.process
  simp only
  split
  · exact (tames_raiseIncident s _ _ _ _).tellsTamely.then (does_conclude _ _ _).asks
  · exact (s.asks_callProcessor _ _ _ _).tellsTamely

theorem tells_respond (s : System) (task : String) (input : Json) : s.TellsTamely (s.respond task input).2 := by
  have tame : (Operation.findTask task).Tame := trivial
  have asked := (s.tames_ask tame).tellsTamely
  unfold System.respond
  simp only
  split
  · next reason t result =>
    rw [result] at asked
    exact asked
  · next found t result =>
    rw [result] at asked
    split
    · exact asked
    · split
      · exact asked
      · split
        · exact asked
        · exact asked.then (t.asks_callProcessor _ _ _ _)

theorem tells_runJob (s : System) (job : String) : s.TellsTamely (s.runJob job) := by
  have marked (t : System) (tells : s.TellsTamely t) :
      s.TellsTamely { t with engine := t.engine.markExecuted job } := tells
  unfold System.runJob
  split
  · exact (Asks.refl s).tellsTamely
  · refine marked _ ?_
    split
    · split
      · exact (s.tames_fireWatchdog _).tellsTamely
      · exact (Asks.refl s).tellsTamely
    · exact (s.does_note rfl).asks.tellsTamely
    · exact (Asks.refl s).tellsTamely

/-- What the dispatcher asks of the engine in a move: it leases for a registration, or reports the retryable failure
of an attempt, or makes tame calls. -/
inductive Inquires (s : System) (leases? : Option Registration) : List Asked → Prop
  | leases {registration : Registration} (leases : leases? = some registration) :
      Inquires s leases? [s.leaseAsk registration]
  | fails {call : ProcessorCall} {lease : LeasedTask} (unleased : leases? = none) (member : call ∈ s.calls)
      (attempt : call.subject.attempt? = some lease) (failure : RetryableFailure) :
      Inquires s leases? [s.failureAsk call.worker lease failure]
  | tamely {asks : List Asked} (unleased : leases? = none) (tame : ∀ ask ∈ asks, ask.operation.Tame) :
      Inquires s leases? asks

/-- What a move asks is read off what the dispatcher has asked until then. -/
def Tells (s : System) (leases? : Option Registration) (after : System) : Prop :=
  ∃ asks, s.Inquires leases? asks ∧ after.asked = asks.reverse ++ s.asked

theorem TellsTamely.tells {leases? : Option Registration} (tells : s.TellsTamely after) (unleased : leases? = none) :
    s.Tells leases? after := by
  obtain ⟨asks, tame, asked⟩ := tells
  exact ⟨asks, .tamely unleased tame, asked⟩

theorem Tells.then {leases? : Option Registration} (first : s.Tells leases? middle) (second : middle.Asks after []) :
    s.Tells leases? after := by
  obtain ⟨asks, inquires, asked⟩ := first
  exact ⟨asks, inquires, second.asked.trans asked⟩

theorem Does.tells {registration : Registration} {leases : List LeasedTask}
    (does : s.Does after [s.leaseAsk registration] leases) : s.Tells (some registration) after :=
  ⟨_, .leases rfl, does.asked⟩

/-- What the host does makes no difference for what is asked. -/
theorem Tells.of_host {leases? : Option Registration} {host : Host Work}
    (tells : System.Tells { s with host := host } leases? after) : s.Tells leases? after := by
  obtain ⟨asks, inquires, asked⟩ := tells
  refine ⟨asks, ?_, asked⟩
  cases inquires with
  | leases leases => exact .leases leases
  | fails unleased member attempt failure => exact Inquires.fails (s := s) unleased member attempt failure
  | tamely unleased tame => exact .tamely unleased tame

theorem tells_dispatch (s : System) (key : RegistrationKey) :
    s.Tells (s.registry.lookup key) (s.dispatch key).2 := by
  unfold System.dispatch
  cases s.registry.lookup key with
  | none => exact (Asks.refl s).tellsTamely.tells rfl
  | some registration => exact (s.does_leaseNow registration).tells

/-- Of all work that is run, what leases alone makes other calls than tame ones. -/
theorem tells_runAction_tamely {action : Nat} {a : HostAction Work} (runs : s.host.running? action = some a)
    (unleased : a.work.leasesFor? = none) : s.TellsTamely (s.runAction action).2 := by
  unfold System.runAction
  simp only [runs]
  cases work : a.work with
  | deferLease registration => exact (s.asks_runAsync _ _).tellsTamely.then (asks_finishAction _ action)
  | lease registration =>
    rw [work] at unleased
    cases unleased
  | deferRetry registration delay => exact (s.asks_runAfter _ _ _).tellsTamely.then (asks_finishAction _ action)
  | handOut tasks => exact (s.asks_runAsyncs _ tasks).tellsTamely.then (asks_finishAction _ action)
  | process task =>
    have processed := s.tells_process (some action) task
    simp only
    split
    · next outcome t result =>
      rw [result] at processed
      exact processed.then (t.asks_finishAction action)
    · next call t result =>
      rw [result] at processed
      exact processed
  | compensate task worker vars error =>
    exact (s.tames_compensate _ _ _ _).tellsTamely.then (asks_finishAction _ action)

theorem tells_runAction (s : System) (action : Nat) :
    s.Tells ((s.host.running? action).bind fun a => a.work.leasesFor?) (s.runAction action).2 := by
  cases runs : s.host.running? action with
  | none =>
    simp only [System.runAction, runs]
    exact (Asks.refl s).tellsTamely.tells rfl
  | some a =>
    rw [Option.bind_some]
    cases work : a.work with
    | lease registration =>
      simp only [System.runAction, runs, work]
      exact (s.does_leaseLogged registration).tells.then (asks_finishAction _ action)
    | _ => exact (tells_runAction_tamely runs (by rw [work]; rfl)).tells rfl

theorem Ends.tells {kind : CallKind} {call : ProcessorCall} {number : Nat} {lease : LeasedTask}
    {failure? : Option RetryableFailure} (member : call ∈ s.calls) (attempt : call.subject.attempt? = some lease)
    (ends : (s.dropCall number).Ends kind call.worker lease failure? after) : s.Tells none after := by
  have dropped : s.Asks (s.dropCall number) [] := ⟨rfl, rfl, rfl, rfl⟩
  cases failure? with
  | some failure =>
    have does : (s.dropCall number).Does after [(s.dropCall number).failureAsk call.worker lease failure] [] := ends
    exact ⟨_, .fails rfl member attempt failure, does.asked⟩
  | none =>
    refine (TellsTamely.of_asks dropped ?_).tells rfl
    cases kind with
    | process => exact (Finishes.tames ends).tellsTamely
    | _ => exact Tames.tellsTamely ends

theorem tells_endCall (s : System) (number : Nat) (kind : CallKind) (attempt : Attempt kind.Value) :
    s.Tells none (s.endCall number kind attempt).2 := by
  have still : s.Tells none s := (Asks.refl s).tellsTamely.tells rfl
  unfold System.endCall
  split
  · exact still
  · next call pending =>
    have member := List.mem_of_find?_eq_some pending
    simp only
    split
    · next task ended subject =>
      have attempts : call.subject.attempt? = some task := by rw [subject]; rfl
      exact ((ends_endProcess (s.dropCall number) call task ended).tells member attempts).then (asks_finishCall _ call)
    · next task ended subject =>
      have attempts : call.subject.attempt? = some task := by rw [subject]; rfl
      exact ((ends_endRequest (s.dropCall number) call task ended).tells member attempts).then (asks_finishCall _ call)
    · next task _ ended _ =>
      have dropped : s.Asks (s.dropCall number) [] := ⟨rfl, rfl, rfl, rfl⟩
      have told := TellsTamely.of_asks dropped (tames_endRespond _ call task ended).tellsTamely
      exact (told.then (asks_finishCall _ call)).tells rfl
    · exact still

theorem Tells.inquires {move : Move} (tells : s.Tells (s.leasesFor? move) (s.step move).2)
    (others : ∀ kind operation, move ≠ .operate kind operation) : s.Inquires (s.leasesFor? move) (s.asksIn move) := by
  obtain ⟨asks, inquires, asked⟩ := tells
  rwa [asksIn_eq move asked others]

/-- Whatever moves, the dispatcher leases for a registration, or reports a failure, or makes tame calls. -/
theorem inquires_step (s : System) (move : Move) (others : ∀ kind operation, move ≠ .operate kind operation) :
    s.Inquires (s.leasesFor? move) (s.asksIn move) := by
  refine Tells.inquires ?_ others
  have silent {t : System} (asked : t.asked = s.asked) : s.TellsTamely t := ⟨[], by simp, asked⟩
  cases move with
  | operate kind operation => exact absurd rfl (others kind operation)
  | register definitionKey topic lockTimeout vars contract =>
    exact (s.asks_register definitionKey topic lockTimeout vars contract).tellsTamely.tells rfl
  | sweep => exact s.does_sweep.asks.tellsTamely.tells rfl
  | dispatch key => exact s.tells_dispatch key
  | process task =>
    rw [step_process]
    exact (s.tells_process none task).tells rfl
  | respond task input =>
    rw [step_respond]
    exact (s.tells_respond task input).tells rfl
  | fireWatchdog payload => exact (s.tames_fireWatchdog payload).tellsTamely.tells rfl
  | setLockTimeout timeout =>
    simp only [System.step]
    split <;> exact (silent rfl).tells rfl
  | answer number kind attempt => exact s.tells_endCall number kind attempt
  | start action =>
    simp only [System.step, leasesFor?]
    split
    · exact (tells_runAction { s with host := s.host.start action } action).of_host
    · exact (silent rfl).tells rfl
  | resume action =>
    simp only [System.step, leasesFor?]
    split
    · exact (tells_runAction { s with host := s.host.resume action } action).of_host
    · exact (silent rfl).tells rfl
  | wake action =>
    simp only [System.step]
    split <;> exact (silent rfl).tells rfl
  | commit => exact s.asks_commit.tellsTamely.tells rfl
  | runJob job => exact (s.tells_runJob job).tells rfl
  | _ => exact (silent rfl).tells rfl

/-- A lease that a move makes is all that it asks. -/
theorem asksIn_leases {move : Move} {registration : Registration}
    (leases : s.leasesFor? move = some registration) : s.asksIn move = [s.leaseAsk registration] := by
  have others : ∀ kind operation, move ≠ .operate kind operation := by
    rintro kind operation rfl
    cases leases
  have inquires := s.inquires_step move others
  generalize s.asksIn move = asks at inquires
  cases inquires with
  | leases same => rw [Option.some.inj (leases.symm.trans same)]
  | fails unleased | tamely unleased =>
    rw [leases] at unleased
    cases unleased

end System

end TaskLeasing
