import TaskLeasing.Proofs.System.Attempts

namespace TaskLeasing.System

variable {s after : System} {hand : List Work} {sent : List LeasedTask}

theorem Tracked.logError (tracked : s.Tracked hand sent) (operation error context : String) :
    (s.logError operation error context).Tracked hand sent := tracked.defers (defers_log _ _)

theorem Tracked.findTask (tracked : s.Tracked hand sent) (task : String) :
    (s.ask (.findTask task)).2.Tracked hand sent :=
  tracked.ask (.findTask task) trivial rfl

/-- A response that begins takes no task from those that are covered. -/
theorem Tracked.respond (tracked : s.Tracked hand sent) (task : String) (input : Json) :
    (s.respond task input).2.Tracked hand sent := by
  have asked := tracked.findTask task
  unfold System.respond
  simp only
  split
  · next error t found =>
    rw [found] at asked
    exact asked
  · next value t found =>
    rw [found] at asked
    split
    · exact asked
    · split
      · exact asked
      · next registration looked =>
        split
        · exact asked
        · exact Tracked.callProcessor (.respond _ _) none asked (List.mem_of_find?_eq_some looked)
            (by simp [CallSubject.attempt?])

theorem Tracked.deferCompensation (tracked : s.Tracked hand sent) (task : ExternalTask) (worker : String)
    (vars : Variables) (error : EngineError) :
    (s.deferCompensation task worker vars error).Tracked hand sent := by
  have put : s.Tracked (.compensate task worker vars error :: hand) sent := tracked.put trivial
  exact (put.afterCommit "incident").defers (defers_count _ _)

theorem Tracked.compensate (tracked : s.Tracked hand sent) (task : ExternalTask) (worker : String)
    (vars : Variables) (error : EngineError) : (s.compensate task worker vars error).Tracked hand sent := by
  unfold System.compensate
  refine Tracked.raiseIncident ?_ _ _ _ _
  split
  · exact tracked
  · have asked := tracked.ask (.setVariables task.execution vars) trivial rfl
    split
    · next t answered =>
      rw [answered] at asked
      exact asked
    · next refusal t answered =>
      rw [answered] at asked
      exact asked.logError _ _ _

theorem Tracked.endRespond (tracked : s.Tracked hand sent) (call : ProcessorCall) (task : ExternalTask)
    (attempt : Attempt (Json × Variables)) : (s.endRespond call task attempt).2.Tracked hand sent := by
  unfold System.endRespond
  split
  · next business _ =>
    have asked := tracked.ask (.businessError task.id call.worker business.code business.message business.vars)
      trivial rfl
    split
    · next refusal t answered =>
      rw [answered] at asked
      exact asked
    · next t answered =>
      rw [answered] at asked
      exact asked.defers (defers_count _ _)
  · exact tracked
  · next result vars _ =>
    have counted := tracked.defers (defers_count s s.counters.countResponse)
    have asked := counted.ask (.complete task.id call.worker vars) trivial rfl
    simp only
    split
    · next t answered =>
      rw [answered] at asked
      exact asked
    · next refusal t answered =>
      rw [answered] at asked
      exact asked.deferCompensation _ _ _ _

/-- A watchdog loses no task: if it fires, an incident is open. -/
theorem Tracked.checkWatchdog (tracked : s.Tracked hand sent) (watchdog : Watchdog) :
    (s.checkWatchdog watchdog).2.Tracked hand sent := by
  have asked := tracked.findTask watchdog.task
  unfold System.checkWatchdog
  split
  · next error t found =>
    rw [found] at asked
    exact asked
  · next t found =>
    rw [found] at asked
    exact asked
  · next task t found =>
    rw [found] at asked
    split
    · exact asked
    · split
      · exact asked
      · split
        · exact asked
        · have fired (details : String) := asked.askFailure task.id t.settings.workerId
            (.terminal (t.timeoutMessage task) details) fun _ => .inl rfl
          simp only
          split
          · next error u answered =>
            rw [show u = (t.ask _).2 from (congrArg Prod.snd answered).symm]
            exact fired _
          · next u answered =>
            rw [show u = (t.ask _).2 from (congrArg Prod.snd answered).symm]
            exact fired _

theorem Tracked.fireWatchdog (tracked : s.Tracked hand sent) (payload : String) :
    (s.fireWatchdog payload).2.Tracked hand sent := by
  unfold System.fireWatchdog
  split
  · exact tracked
  · next watchdog _ =>
    have checked := tracked.checkWatchdog watchdog
    split
    · next error t verdict =>
      rw [verdict] at checked
      exact checked
    · next verdict t verdict' =>
      rw [verdict'] at checked
      exact checked.defers (defers_count _ _)

theorem Tracked.markExecuted (tracked : s.Tracked hand sent) (job : String) :
    System.Tracked { s with engine := s.engine.markExecuted job } hand sent := by
  have tended := tracked.engine
  refine tracked.turn ⟨tended.sound.of_eq rfl rfl rfl rfl, tended.available, tended.task_names,
    tended.instance_names, tended.distinct, tended.owner, tended.stuck⟩ tracked.attached
    ⟨Nat.le_refl _, fun record member => .inr ⟨record, member, .refl record, .inl rfl⟩⟩ (fun _ leased => leased)
    (fun _ leased => .inl leased) (fun work member => ?_) tracked.covered
  exact (tracked.at_hand work member).mono (fun _ entry => entry) fun _ leased => leased

theorem Tracked.runJob (tracked : s.Tracked hand sent) (id : String) : (s.runJob id).Tracked hand sent := by
  unfold System.runJob
  split
  · exact tracked
  · next job _ =>
    simp only
    refine Tracked.markExecuted ?_ id
    split
    · split
      · exact tracked.fireWatchdog _
      · exact tracked
    · exact tracked.defers (defers_note _ _ rfl)
    · exact tracked

/-- A sweep adds a lease for every registration. -/
theorem Tracked.sweep (tracked : s.Tracked hand sent) : s.sweep.2.Tracked hand sent := by
  have swept (entries : List Registration) (t : System) (tracked : t.Tracked hand sent)
      (registered : ∀ registration ∈ entries, registration ∈ t.registry.entries) :
      (entries.foldl (fun s registration => s.afterCommit "fetch_and_lock" (.deferLease registration)) t).Tracked
        hand sent := by
    induction entries generalizing t with
    | nil => exact tracked
    | cons first rest ih =>
      have proper : (Work.deferLease first).Proper t := registered first (List.mem_cons_self ..)
      refine ih _ ((tracked.put proper).afterCommit _) fun registration member => ?_
      rw [(t.defers_afterCommit "fetch_and_lock" (.deferLease first)).registry]
      exact registered registration (List.mem_cons_of_mem _ member)
  exact swept s.registry.entries s tracked fun _ member => member

end TaskLeasing.System
