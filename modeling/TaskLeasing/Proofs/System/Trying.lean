import TaskLeasing.Proofs.System.Rationing

namespace TaskLeasing

/-- The call that something goes on with, if it does. -/
def Progress.call? {α : Type} : Progress α → Option ProcessorCall
  | .finished _ => none
  | .calling call => some call

/-- The call of a processor that a move comes to. -/
def Consequence.call? : Consequence → Option ProcessorCall
  | .calling call => some call
  | _ => none

namespace System

variable {s : System} {task : String} {held : List LeasedTask} {events : List AttemptEvent} {a : HostAction Work}
  {lease : LeasedTask}

theorem prompt_finishAction {action : Nat} (prompt : (s.finishAction action).Prompt task) : s.Prompt task := by
  rcases s.finishAction_cases action with same | ⟨next, same⟩ <;> rw [same] at prompt <;> exact prompt

theorem call?_process (s : System) (lease : LeasedTask) :
    (s.step (.process lease)).1.call? = (s.process none lease).1.call? := by
  unfold System.step
  simp only
  split
  · next outcome t result => rw [result]; rfl
  · next call t result => rw [result]; rfl

theorem call?_respond (s : System) (id : String) (input : Json) :
    (s.step (.respond id input)).1.call? = (s.respond id input).1.call? := by
  unfold System.step
  simp only
  split
  · next outcome t result => rw [result]; rfl
  · next call t result => rw [result]; rfl

/-- An answer comes to no further call. -/
theorem call?_endCall (s : System) (number : Nat) {kind : CallKind} (attempt : Attempt kind.Value) :
    (s.endCall number kind attempt).1.call? = none := by
  unfold System.endCall
  split
  · rfl
  · simp only
    split <;> rfl

namespace Rationed

/-- What does not call a processor begins no attempt. -/
theorem quiet (rationed : s.Rationed task held events) : s.Rationed task held (events ++ []) := by
  rwa [List.append_nil]

theorem finishAction (rationed : s.Rationed task held events) (action : Nat) :
    (s.finishAction action).Rationed task held events := rationed.silent (does_finishAction rationed.numbered action)

theorem finishCall (rationed : s.Rationed task held events) (call : ProcessorCall) :
    (s.finishCall call).Rationed task held events := rationed.silent (does_finishCall rationed.numbered call)

/-- A leased task at hand is brought to its processor, or its incident is raised. -/
theorem process (rationed : s.Rationed task (lease :: held) events) (action : Option Nat)
    (prompt : (s.process action lease).2.Prompt task) : (s.process action lease).2.Rationed task held
      (events ++ begins task s.now (s.process action lease).1.call?) := by
  cases found : s.registry.lookup ⟨lease.definitionKey, lease.topic⟩ with
  | none =>
    have dropped : s.Rationed task held events := drop [lease] rationed
    simp only [System.process, found]
    exact ((dropped.tames (tames_raiseIncident _ _ _ _ _)).silent (does_conclude _ _ _)).quiet
  | some registration =>
    simp only [System.process, found] at prompt ⊢
    cases contract : registration.contract with
    | sync =>
      rw [contract] at prompt
      exact Rationed.call (.process lease) rationed action registration prompt
    | async timeout message =>
      rw [contract] at prompt
      exact Rationed.call (.request lease) rationed action registration prompt

/-- Work that the host has taken up is done, with the leased tasks that it is about at hand. -/
theorem runAction (rationed : s.Rationed task (a.work.leases ++ held) events) {action : Nat}
    (runs : s.host.running? action = some a) (prompt : (s.runAction action).2.Prompt task) :
    (s.runAction action).2.Rationed task held
      (events ++ begins task s.now (s.runAction action).1.call?) := by
  unfold System.runAction at prompt ⊢
  simp only [runs] at prompt ⊢
  have quiet {after : System} (rationed : after.Rationed task held events) :
      (after.finishAction action).Rationed task held (events ++ []) := (rationed.finishAction action).quiet
  cases work : a.work with
  | deferLease registration =>
    rw [work] at rationed
    exact quiet (rationed.silent (s.does_runAsync "fetch_and_lock" (.lease registration)))
  | lease registration =>
    rw [work] at rationed
    exact quiet (rationed.leased registration (s.does_leaseLogged registration))
  | deferRetry registration delay =>
    rw [work] at rationed
    exact quiet (rationed.silent (s.does_runAfter "retry" delay (.lease registration)))
  | handOut tasks =>
    rw [work] at rationed
    exact quiet (rationed.leave (s.does_runAsyncs "process" tasks))
  | process lease =>
    rw [work] at rationed prompt
    have processed := rationed.process (some action)
    simp only at prompt ⊢
    split
    · next outcome t result =>
      rw [result] at processed prompt
      exact (processed (prompt_finishAction prompt)).finishAction action
    · next call t result =>
      rw [result] at processed prompt
      exact processed prompt
  | compensate compensated worker vars error =>
    rw [work] at rationed
    exact quiet (rationed.tames (s.tames_compensate compensated worker vars error))

/-- An action that the host takes up has what it is about at hand. -/
theorem takeUp (rationed : s.Rationed task held events) {host : Host Work} (numbered : host.Numbered)
    (runs : host.running? a.number = some a)
    (handed : s.handed.Perm (a.work.leases ++ ({ s with host := host } : System).handed))
    (prompt : (System.runAction { s with host := host } a.number).2.Prompt task) :
    (System.runAction { s with host := host } a.number).2.Rationed task held
      (events ++ begins task s.now (System.runAction { s with host := host } a.number).1.call?) := by
  have taken : System.Rationed { s with host := host } task (a.work.leases ++ held) events := by
    refine rationed.of_host numbered ?_
    rw [List.append_assoc]
    exact (handed.append_left held).trans (List.perm_append_comm_assoc _ _ _)
  exact taken.runAction runs prompt

theorem start (rationed : s.Rationed task held events) (action : Nat)
    (prompt : (s.step (.start action)).2.Prompt task) : (s.step (.start action)).2.Rationed task held
      (events ++ begins task s.now (s.step (.start action)).1.call?) := by
  revert prompt
  unfold System.step
  simp only
  split
  · next found =>
    obtain ⟨a, member, number⟩ := List.any_eq_true.mp found
    obtain rfl : a.number = action := by simpa using number
    have numbered := (rationed.numbered.start member).1
    rcases handed_start rationed.numbered member with ⟨runs, handed⟩ | ⟨waits, handed⟩
    · exact rationed.takeUp numbered runs handed
    · unfold System.runAction
      simp only [waits]
      exact fun _ => (rationed.of_host numbered (handed.append_left held)).quiet
  · exact fun _ => rationed.quiet

theorem resume (rationed : s.Rationed task held events) (action : Nat)
    (prompt : (s.step (.resume action)).2.Prompt task) : (s.step (.resume action)).2.Rationed task held
      (events ++ begins task s.now (s.step (.resume action)).1.call?) := by
  revert prompt
  unfold System.step
  simp only
  split
  · next found =>
    obtain ⟨a, member, number⟩ := List.any_eq_true.mp found
    obtain rfl : a.number = action := by simpa using number
    obtain ⟨runs, handed⟩ := handed_resume rationed.numbered member
    exact rationed.takeUp (rationed.numbered.resume member).1 runs handed
  · exact fun _ => rationed.quiet

theorem wake (rationed : s.Rationed task held events) (action : Nat) : (s.step (.wake action)).2.Rationed task held
    (events ++ begins task s.now (s.step (.wake action)).1.call?) := by
  unfold System.step
  simp only
  split
  · exact rationed.quiet
  · exact ((rationed.silent (does_wake rationed.numbered action)).silent (does_note _ rfl)).quiet

/-- A call of the engine by others that spares the task may give its leases to them. -/
theorem operate (rationed : s.Rationed task held events) {kind : AnswerKind} {operation : Operation kind}
    (spares : operation.Spares task) : (s.operate operation).2.Rationed task
      (held ++ Asked.granted s.settings.workerId task ⟨kind, operation, (s.operate operation).1⟩) events := by
  have called (ask : Asked) (same : ask = ⟨kind, operation, (s.call operation).1⟩) :
      (s.call operation).2.Rationed task (held ++ ask.granted s.settings.workerId task) events := by
    have heard : ask.result = (s.engine.step s.now (s.names.next s.engine) ask.operation).result := by
      rw [same]
      rfl
    have spares : ask.operation.Spares task := by rwa [same]
    have engine : (s.advanced operation).engine =
        (s.engine.step s.now (s.names.next s.engine) ask.operation).engine := by
      rw [same]
      rfl
    have moved : (held ++ (s.handed ++ s.attempted) ++ ask.granted s.settings.workerId task).Perm
        (held ++ ask.granted s.settings.workerId task ++ (s.handed ++ s.attempted)) := by
      rw [List.append_assoc held, List.append_assoc held]
      exact List.perm_append_comm.append_left held
    have moved := moved.filter fun lease => lease.id = task
    rw [List.filter_append, Asked.filter_granted] at moved
    have advanced : (s.advanced operation).Rationed task (held ++ ask.granted s.settings.workerId task) events := by
      refine rationed.turn { rationed.toInOrder with } rfl rfl rfl fun _ before => ?_
      rw [engine]
      exact (before.hear rationed.apart heard spares).of_perm [] (by rwa [List.append_nil])
    exact advanced.silent (s.does_call operation)
  cases operation with
  | scheduleJob due payload =>
    have asked : (s.ask (.scheduleJob due payload)).2.Rationed task held events :=
      rationed.tames (s.tames_ask trivial)
    change (s.operate (.scheduleJob due payload)).2.Rationed task (held ++ []) events
    rw [List.append_nil]
    unfold System.operate
    simp only
    split
    · next job t result =>
      rw [result] at asked
      exact asked.silent (t.does_note rfl)
    · next reason t result =>
      rw [result] at asked
      exact asked
  | _ => exact called _ rfl

theorem respond (rationed : s.Rationed task held events) (id : String) (input : Json)
    (prompt : (s.respond id input).2.Prompt task) : (s.respond id input).2.Rationed task held
      (events ++ begins task s.now (s.respond id input).1.call?) := by
  have asked : (s.ask (.findTask id)).2.Rationed task held events := rationed.tames (s.tames_ask trivial)
  have now : (s.ask (.findTask id)).2.now = s.now := (s.does_ask (.findTask id)).now
  revert prompt
  unfold System.respond
  simp only
  split
  · next reason t result =>
    rw [result] at asked
    exact fun _ => asked.quiet
  · next found t result =>
    rw [result] at asked now
    simp only at asked now
    split
    · exact fun _ => asked.quiet
    · split
      · exact fun _ => asked.quiet
      · split
        · exact fun _ => asked.quiet
        · rw [← now]
          exact asked.call (.respond _ input) none _

theorem runJob (rationed : s.Rationed task held events) (job : String) :
    (s.runJob job).Rationed task held events := by
  have marked (t : System) (rationed : t.Rationed task held events) :
      System.Rationed { t with engine := t.engine.markExecuted job } task held events :=
    rationed.turn { rationed.toInOrder with } rfl rfl rfl fun _ before => before.markExecuted job
  unfold System.runJob
  split
  · exact rationed
  · refine marked _ ?_
    split
    · split
      · exact rationed.tames (s.tames_fireWatchdog _)
      · exact rationed
    · exact rationed.silent (s.does_note rfl)
    · exact rationed

theorem passTo (rationed : s.Rationed task held events) {time : Instant} (onward : s.now ≤ time) :
    (s.passTo time).Rationed task held events :=
  rationed.turn { rationed.toInOrder with } rfl rfl rfl fun _ before => before.pass (Instant.le_shown s.ordinary onward)

theorem of_settings (rationed : s.Rationed task held events) {settings : Settings}
    (worker : settings.workerId = s.settings.workerId) :
    System.Rationed { s with settings := settings } task held events := by
  have order : System.InOrder { s with settings := settings } :=
    rationed.toInOrder.turn rfl worker rfl rfl rationed.numbered
  exact rationed.turn order rfl worker rfl fun _ before => before

theorem setLockTimeout (rationed : s.Rationed task held events) (timeout : Span) :
    (s.step (.setLockTimeout timeout)).2.Rationed task held
      (events ++ begins task s.now (s.step (.setLockTimeout timeout)).1.call?) := by
  unfold System.step
  simp only
  split
  · next settings changed => exact (rationed.of_settings (setLockTimeout_workerId changed)).quiet
  · exact rationed.quiet

theorem register (rationed : s.Rationed task held events) (definitionKey topic : String) (lockTimeout : Option Span)
    (vars : VariableScope) (contract : Contract) :
    (s.register definitionKey topic lockTimeout vars contract).2.Rationed task held events := by
  unfold System.register
  split
  · next entry registry _ =>
    have amended : System.Rationed { s with registry := registry } task held events :=
      rationed.turn { rationed.toInOrder with } rfl rfl rfl fun _ before => before
    exact amended.silent (does_log _ _)
  · exact rationed.silent (does_log _ _)
  · exact rationed

theorem dispatch (rationed : s.Rationed task held events) (key : RegistrationKey) :
    (s.dispatch key).2.Rationed task held events := by
  unfold System.dispatch
  split
  · exact rationed
  · next registration _ => exact rationed.leased registration (s.does_leaseNow registration)

end Rationed

end System

end TaskLeasing
