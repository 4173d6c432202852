import TaskLeasing.Proofs.System.Conduct
import TaskLeasing.Proofs.System.Custody

namespace TaskLeasing

/-- What a part of a move does to the engine, and is seen to ask of it. -/
structure System.Asks (s after : System) (asks : List Asked) : Prop where
  names : after.names = s.names
  now : after.now = s.now
  engine : s.engine.Hears s.now s.names asks after.engine
  asked : after.asked = asks.reverse ++ s.asked

/-- Of several calls none is a lease: a lease comes alone. -/
def LoneLease (asks : List Asked) : Prop := (∀ ask ∈ asks, ask.leased = []) ∨ ∃ ask, asks = [ask]

/-- A part of a move that asks the engine something, or for one lease. -/
def System.Speaks (s after : System) : Prop := ∃ asks, LoneLease asks ∧ s.Asks after asks

theorem Operation.Tame.unleased {ask : Asked} (tame : ask.operation.Tame) : ask.leased = [] := by
  obtain ⟨kind, operation, result⟩ := ask
  cases operation with
  | lease request => cases tame
  | _ => rfl

namespace System

variable {s middle after : System} {made more : List Asked}

theorem Asks.refl (s : System) : s.Asks s [] := ⟨rfl, rfl, rfl, rfl⟩

theorem Asks.trans (first : s.Asks middle made) (second : middle.Asks after more) : s.Asks after (made ++ more) where
  names := second.names.trans first.names
  now := second.now.trans first.now
  engine := by
    have later := second.engine
    rw [first.now, first.names] at later
    exact first.engine.append later
  asked := by rw [second.asked, first.asked, List.reverse_append, List.append_assoc]

theorem Does.asks {leases : List LeasedTask} (does : s.Does after made leases) : s.Asks after made :=
  ⟨does.names, does.now, does.engine, does.asked⟩

theorem Asks.speaks (silent : s.Asks after []) : s.Speaks after := ⟨[], .inl (by simp), silent⟩

theorem Tames.speaks (tames : s.Tames after) : s.Speaks after := by
  obtain ⟨made, tame, does⟩ := tames
  exact ⟨made, .inl fun ask member => (tame ask member).unleased, does.asks⟩

theorem Does.speaks {ask : Asked} {leases : List LeasedTask} (does : s.Does after [ask] leases) : s.Speaks after :=
  ⟨[ask], .inr ⟨ask, rfl⟩, does.asks⟩

theorem Speaks.then (first : s.Speaks middle) (second : middle.Asks after []) : s.Speaks after := by
  obtain ⟨made, lone, does⟩ := first
  have does := does.trans second
  rw [List.append_nil] at does
  exact ⟨made, lone, does⟩

theorem Speaks.of_asks (first : s.Asks middle []) (second : middle.Speaks after) : s.Speaks after := by
  obtain ⟨made, lone, does⟩ := second
  exact ⟨made, lone, first.trans does⟩

theorem asks_submit (s : System) (label : String) (bounded : Bool) (work : Work) :
    s.Asks (s.submit label bounded work) [] := ⟨rfl, rfl, rfl, rfl⟩

theorem asks_runAsync (s : System) (label : String) (work : Work) : s.Asks (s.runAsync label work) [] :=
  ⟨rfl, rfl, rfl, rfl⟩

theorem asks_runAfter (s : System) (label : String) (delay : Span) (work : Work) :
    s.Asks (s.runAfter label delay work) [] := ⟨rfl, rfl, rfl, rfl⟩

theorem asks_finishAction (s : System) (action : Nat) : s.Asks (s.finishAction action) [] := by
  rcases s.finishAction_cases action with same | ⟨next, same⟩ <;> rw [same] <;> exact ⟨rfl, rfl, rfl, rfl⟩

theorem asks_finishCall (s : System) (call : ProcessorCall) : s.Asks (s.finishCall call) [] := by
  unfold finishCall
  cases call.action with
  | none => exact .refl s
  | some action => exact s.asks_finishAction action

theorem asks_callProcessor (s : System) (action : Option Nat) (registration : Registration) (worker : String)
    (subject : CallSubject) : s.Asks (s.callProcessor action registration worker subject).2 [] :=
  ⟨rfl, rfl, rfl, rfl⟩

theorem speaks_process (s : System) (action : Option Nat) (task : LeasedTask) :
    s.Speaks (s.process action task).2 := by
  unfold System.process
  simp only
  split
  · exact (tames_raiseIncident s _ _ _ _).speaks.then (does_conclude _ _ _).asks
  · split
    · exact (s.asks_callProcessor _ _ _ _).speaks
    · exact (s.asks_callProcessor _ _ _ _).speaks

theorem Ends.speaks {kind : CallKind} {worker : String} {lease : LeasedTask} {failure? : Option RetryableFailure}
    (ends : s.Ends kind worker lease failure? after) : s.Speaks after := by
  cases failure? with
  | some failure => exact Does.speaks ends
  | none =>
    cases kind with
    | process => exact (Finishes.tames ends).speaks
    | _ => exact Tames.speaks ends

theorem speaks_respond (s : System) (task : String) (input : Json) : s.Speaks (s.respond task input).2 := by
  have tame : (Operation.findTask task).Tame := trivial
  have asked := (s.tames_ask tame).speaks
  unfold System.respond
  simp only
  split
  · next reason t result =>
    rw [result] at asked
    exact asked
  · next found t result =>
    rw [result] at asked
    split
    · exact asked
    · split
      · exact asked
      · split
        · exact asked
        · exact asked.then (t.asks_callProcessor _ _ _ _)

theorem speaks_endCall (s : System) (number : Nat) (kind : CallKind) (attempt : Attempt kind.Value) :
    s.Speaks (s.endCall number kind attempt).2 := by
  have dropped : s.Asks (s.dropCall number) [] := ⟨rfl, rfl, rfl, rfl⟩
  cases pending : s.calls.find? fun call => call.number = number with
  | none =>
    have same : (s.endCall number kind attempt).2 = s := by simp only [System.endCall, pending]
    rw [same]
    exact (Asks.refl s).speaks
  | some call =>
    have untouched (same : (s.endCall number kind attempt).2 = s) : s.Speaks (s.endCall number kind attempt).2 := by
      rw [same]
      exact (Asks.refl s).speaks
    cases subject : call.subject with
    | process task =>
      cases kind with
      | process =>
        rw [endCall_process pending subject attempt]
        exact .of_asks dropped ((ends_endProcess _ call task attempt).speaks.then (asks_finishCall _ call))
      | request => exact untouched (by simp only [System.endCall, pending, subject])
      | respond => exact untouched (by simp only [System.endCall, pending, subject])
    | request task =>
      cases kind with
      | request =>
        rw [endCall_request pending subject attempt]
        exact .of_asks dropped ((ends_endRequest _ call task attempt).speaks.then (asks_finishCall _ call))
      | process => exact untouched (by simp only [System.endCall, pending, subject])
      | respond => exact untouched (by simp only [System.endCall, pending, subject])
    | respond task input =>
      cases kind with
      | respond =>
        simp only [System.endCall, pending, subject]
        exact .of_asks dropped ((tames_endRespond _ call task attempt).speaks.then (asks_finishCall _ call))
      | process => exact untouched (by simp only [System.endCall, pending, subject])
      | request => exact untouched (by simp only [System.endCall, pending, subject])

theorem asks_runAsyncs (s : System) (label : String) (tasks : List LeasedTask) :
    s.Asks (tasks.foldl (fun s task => s.runAsync label (.process task)) s) [] := by
  induction tasks generalizing s with
  | nil => exact .refl s
  | cons first rest ih => exact (s.asks_runAsync label (.process first)).trans (ih _)

theorem speaks_runAction (s : System) (action : Nat) : s.Speaks (s.runAction action).2 := by
  unfold System.runAction
  split
  · exact (Asks.refl s).speaks
  · split
    · exact (s.asks_runAsync _ _).speaks.then (asks_finishAction _ action)
    · next registration _ => exact (s.does_leaseLogged registration).speaks.then (asks_finishAction _ action)
    · exact (s.asks_runAfter _ _ _).speaks.then (asks_finishAction _ action)
    · next tasks _ => exact (s.asks_runAsyncs _ tasks).speaks.then (asks_finishAction _ action)
    · next task _ =>
      have processed := s.speaks_process (some action) task
      split
      · next outcome t result =>
        rw [result] at processed
        exact processed.then (t.asks_finishAction action)
      · next call t result =>
        rw [result] at processed
        exact processed
    · exact (s.tames_compensate _ _ _ _).speaks.then (asks_finishAction _ action)

theorem speaks_dispatch (s : System) (key : RegistrationKey) : s.Speaks (s.dispatch key).2 := by
  unfold System.dispatch
  split
  · exact (Asks.refl s).speaks
  · next registration _ => exact (s.does_leaseNow registration).speaks

theorem asks_commit (s : System) : s.Asks s.commit.2 [] := by
  have submitted (held : List (String × Work)) (t : System) :
      t.Asks (held.foldl (fun s (entry : String × Work) => s.submit entry.1 false entry.2) t) [] := by
    induction held generalizing t with
    | nil => exact .refl t
    | cons first rest ih => exact (t.asks_submit first.1 false first.2).trans (ih _)
  unfold System.commit
  split
  · exact .refl s
  · next held _ =>
    have opened : s.Asks { s with gate := some [] } [] := ⟨rfl, rfl, rfl, rfl⟩
    exact opened.trans (submitted held _)

theorem asks_register (s : System) (definitionKey topic : String) (lockTimeout : Option Span)
    (vars : VariableScope) (contract : Contract) :
    s.Asks (s.register definitionKey topic lockTimeout vars contract).2 [] := by
  unfold System.register
  split <;> exact ⟨rfl, rfl, rfl, rfl⟩

/-- The calls of the engine that belong to a move: the one that another party makes, or those that the
dispatcher is seen to make. -/
def asksIn (s : System) : Move → List Asked
  | .operate kind operation => [⟨kind, operation, (s.operate operation).1⟩]
  | move => ((s.step move).2.asked.take ((s.step move).2.asked.length - s.asked.length)).reverse

/-- The calls of the engine in the course of moves, in order. -/
def asksOf : System → List Move → List Asked
  | _, [] => []
  | s, move :: rest => s.asksIn move ++ (s.step move).2.asksOf rest

theorem asksOf_append (s : System) (before after : List Move) :
    s.asksOf (before ++ after) = s.asksOf before ++ (s.run before).asksOf after := by
  induction before generalizing s with
  | nil => rfl
  | cons move rest ih =>
    simp only [List.cons_append, asksOf, ih, List.append_assoc]
    rfl

/-- What a move does to the engine: the calls that belong to it, and at most a job is marked as executed. -/
structure Turns (s after : System) (made : List Asked) : Prop where
  names : after.names = s.names
  engine : ∃ e, s.engine.Hears s.now s.names made e ∧
    (after.engine = e ∨ ∃ job, after.engine = e.markExecuted job)
  lone : LoneLease made

theorem Asks.turns (asks : s.Asks after made) (lone : LoneLease made) : s.Turns after made :=
  ⟨asks.names, ⟨_, asks.engine, .inl rfl⟩, lone⟩

theorem asksIn_eq (move : Move) (asked : (s.step move).2.asked = made.reverse ++ s.asked)
    (others : ∀ kind operation, move ≠ .operate kind operation) : s.asksIn move = made := by
  have read : ((s.step move).2.asked.take ((s.step move).2.asked.length - s.asked.length)).reverse = made := by
    simp [asked]
  cases move with
  | operate kind operation => exact absurd rfl (others kind operation)
  | _ => exact read

theorem Speaks.turns {move : Move} (speaks : s.Speaks (s.step move).2)
    (others : ∀ kind operation, move ≠ .operate kind operation) : s.Turns (s.step move).2 (s.asksIn move) := by
  obtain ⟨made, lone, asks⟩ := speaks
  rw [asksIn_eq move asks.asked others]
  exact asks.turns lone

theorem turns_operate (s : System) {kind : AnswerKind} (operation : Operation kind) :
    s.Turns (s.operate operation).2 [⟨kind, operation, (s.operate operation).1⟩] := by
  have made : s.Turns (s.call operation).2 [⟨kind, operation, (s.call operation).1⟩] := by
    have called := s.does_call operation
    exact ⟨called.names, ⟨_, ⟨rfl, rfl⟩, .inl called.engine⟩, .inr ⟨_, rfl⟩⟩
  cases operation with
  | scheduleJob due payload =>
    have asked := s.does_ask (.scheduleJob due payload)
    unfold System.operate
    simp only
    split
    · next job t result =>
      rw [result] at asked
      exact (asked.then (t.does_note rfl)).asks.turns (.inr ⟨_, rfl⟩)
    · next reason t result =>
      rw [result] at asked
      exact asked.asks.turns (.inr ⟨_, rfl⟩)
  | _ => exact made

theorem turns_runJob (s : System) (job : String) :
    ∃ made, s.Turns (s.runJob job) made ∧ (s.runJob job).asked = made.reverse ++ s.asked := by
  unfold System.runJob
  split
  · exact ⟨[], (Asks.refl s).turns (.inl (by simp)), rfl⟩
  · next found _ =>
    have marked (t : System) (speaks : s.Speaks t) :
        ∃ made, s.Turns { t with engine := t.engine.markExecuted job } made ∧ t.asked = made.reverse ++ s.asked := by
      obtain ⟨made, lone, asks⟩ := speaks
      exact ⟨made, ⟨asks.names, ⟨_, asks.engine, .inr ⟨job, rfl⟩⟩, lone⟩, asks.asked⟩
    refine marked _ ?_
    split
    · split
      · exact (s.tames_fireWatchdog _).speaks
      · exact (Asks.refl s).speaks
    · exact (s.does_note rfl).asks.speaks
    · exact (Asks.refl s).speaks

/-- Every move comes to the calls that belong to it. -/
theorem turns_step (s : System) (move : Move) : s.Turns (s.step move).2 (s.asksIn move) := by
  have speaks (spoken : s.Speaks (s.step move).2) (others : ∀ kind operation, move ≠ .operate kind operation) :=
    spoken.turns others
  cases move with
  | operate kind operation => exact s.turns_operate operation
  | setHandler type fails => exact speaks (Asks.speaks ⟨rfl, rfl, rfl, rfl⟩) (by simp)
  | attach => exact speaks (Asks.speaks ⟨rfl, rfl, rfl, rfl⟩) (by simp)
  | register definitionKey topic lockTimeout vars contract =>
    exact speaks (s.asks_register definitionKey topic lockTimeout vars contract).speaks (by simp)
  | sweep => exact speaks s.does_sweep.asks.speaks (by simp)
  | dispatch key => exact speaks (s.speaks_dispatch key) (by simp)
  | process task => exact speaks (by rw [step_process]; exact s.speaks_process none task) (by simp)
  | respond task input => exact speaks (by rw [step_respond]; exact s.speaks_respond task input) (by simp)
  | fireWatchdog payload => exact speaks (s.tames_fireWatchdog payload).speaks (by simp)
  | setWorkerId worker => exact speaks (Asks.speaks ⟨rfl, rfl, rfl, rfl⟩) (by simp)
  | setLockTimeout timeout =>
    refine speaks ?_ (by simp)
    simp only [System.step]
    split <;> exact Asks.speaks ⟨rfl, rfl, rfl, rfl⟩
  | release => exact speaks (Asks.speaks ⟨rfl, rfl, rfl, rfl⟩) (by simp)
  | holdSweeper => exact speaks (Asks.speaks ⟨rfl, rfl, rfl, rfl⟩) (by simp)
  | dropSweeper => exact speaks (Asks.speaks ⟨rfl, rfl, rfl, rfl⟩) (by simp)
  | answer number kind attempt => exact speaks (s.speaks_endCall number kind attempt) (by simp)
  | start action =>
    refine speaks ?_ (by simp)
    simp only [System.step]
    split
    · have started : s.Asks { s with host := s.host.start action } [] := ⟨rfl, rfl, rfl, rfl⟩
      exact .of_asks started (speaks_runAction _ action)
    · exact (Asks.refl s).speaks
  | resume action =>
    refine speaks ?_ (by simp)
    simp only [System.step]
    split
    · have resumed : s.Asks { s with host := s.host.resume action } [] := ⟨rfl, rfl, rfl, rfl⟩
      exact .of_asks resumed (speaks_runAction _ action)
    · exact (Asks.refl s).speaks
  | wake action =>
    refine speaks ?_ (by simp)
    simp only [System.step]
    split
    · exact (Asks.refl s).speaks
    · exact Asks.speaks ⟨rfl, rfl, rfl, rfl⟩
  | commit => exact speaks s.asks_commit.speaks (by simp)
  | runJob job =>
    obtain ⟨made, turns, asked⟩ := s.turns_runJob job
    rw [asksIn_eq (.runJob job) asked (by simp)]
    exact turns
  | passTo time =>
    have none' : s.asksIn (.passTo time) = [] :=
      asksIn_eq (.passTo time) (show s.asked = [].reverse ++ s.asked from rfl) (by simp)
    rw [none']
    exact ⟨rfl, ⟨_, rfl, .inl rfl⟩, .inl (by simp)⟩

end System

end TaskLeasing
