import TaskLeasing.Proofs.Registry
import TaskLeasing.Proofs.System.Coverage

namespace TaskLeasing.System

variable {s after : System} {hand others : List Work} {sent : List LeasedTask} {lease : LeasedTask}

/-- Cover lasts while the works at hand do. -/
theorem Covered.rehand {task : ExternalTask} (covered : s.Covered hand sent task)
    (replaced : ∀ work ∈ hand, work.Covers s.now task → s.Covered others sent task) :
    s.Covered others sent task := covered.replace replaced fun _ => .owed

/-- A leased task stays the worker's while the engine serves this worker alone. -/
theorem Genuine.turn {e : Engine} {journal : List JournalEntry} (genuine : s.Genuine lease)
    (tended : e.Tended s.names s.settings.workerId) (apart : s.names.Distinct)
    (succeeds : s.engine.Succeeds e s.settings.workerId) :
    System.Genuine { s with engine := e, journal := journal } lease := by
  obtain ⟨⟨place, within, named⟩, own⟩ := genuine
  refine ⟨⟨place, Nat.le_trans within succeeds.sequence, named⟩, fun record member id => ?_⟩
  rcases succeeds.records record member with later | ⟨old, atOld, same, worker⟩
  · have := apart.task ((tended.task_names record member).symm.trans (id.trans named))
    omega
  · obtain ⟨key, topic, owned⟩ := own old atOld (same.id.symm.trans id)
    refine ⟨same.definitionKey.trans key, same.topic.trans topic, ?_⟩
    rcases worker with kept | taken
    · exact kept.trans owned
    · exact taken

/-- The engine may turn to another state, and more tasks may be leased, while every open task is covered. -/
theorem Tracked.turn {e : Engine} {journal : List JournalEntry} (tracked : s.Tracked hand sent)
    (tended : e.Tended s.names s.settings.workerId) (attached : e.instances ≠ [] → 0 < s.listening)
    (succeeds : s.engine.Succeeds e s.settings.workerId)
    (leased : ∀ lease ∈ s.leased, lease ∈ journal.flatMap JournalEntry.leased)
    (genuine : ∀ lease ∈ journal.flatMap JournalEntry.leased, lease ∈ s.leased ∨
      System.Genuine { s with engine := e, journal := journal } lease)
    (proper : ∀ work ∈ others, work.Proper { s with engine := e, journal := journal })
    (covered : ∀ record ∈ e.tasks, (s.registry.lookup ⟨record.task.definitionKey, record.task.topic⟩).isSome →
      s.Covered others sent record.task) :
    System.Tracked { s with engine := e, journal := journal } others sent where
  engine := tended
  apart := tracked.apart
  alive := tracked.alive
  attached := attached
  genuine := by
    intro lease member
    rcases genuine lease member with old | new
    · exact (tracked.genuine lease old).turn tended tracked.apart succeeds
    · exact new
  numbered := tracked.numbered
  calls_distinct := tracked.calls_distinct
  calls := by
    intro call member
    exact (tracked.calls call member).mono (Nat.le_refl _) leased rfl fun _ entry => entry
  duties := fun duty member => (tracked.duties duty member).mono (fun _ entry => entry) leased
  at_hand := proper
  were_sent := fun lease member => leased lease (tracked.were_sent lease member)
  covered := covered

theorem Tracked.defers (tracked : s.Tracked hand sent) (defers : s.Defers after []) : after.Tracked hand sent :=
  tracked.add defers.shifts (by simp)

/-- The leases that answer to activities are owed. -/
theorem Tracked.answered {started : List ActivityStarted} {leases : List Registration}
    (tracked : s.Tracked (leases.map .deferLease ++ hand) sent) (answers : s.Answers after started leases) :
    after.Tracked hand sent := by
  have shifts := answers.defers.shifts
  have answered := tracked.add shifts ?_
  · refine Tracked.owed (leases.map .deferLease) answered fun work member => ?_
    rw [shifts.now]
    exact shifts.come _ (List.mem_map_of_mem member)
  · intro duty member
    obtain ⟨work, owed, rfl⟩ := List.mem_map.mp member
    obtain ⟨registration, among, rfl⟩ := List.mem_map.mp owed
    exact answers.registered registration among

/-- What is at hand, and the leases that answer to a call, are proper after the call. -/
theorem Tracked.proper_advanced (tracked : s.Tracked hand sent) {kind : AnswerKind} {operation : Operation kind}
    {started : List ActivityStarted} {leases : List Registration}
    (answers : (s.advanced operation).Answers after started leases) :
    ∀ work ∈ leases.map .deferLease ++ hand, work.Proper (s.advanced operation) := by
  intro work member
  rcases List.mem_append.mp member with new | old
  · obtain ⟨registration, among, rfl⟩ := List.mem_map.mp new
    exact answers.registered registration among
  · exact (tracked.at_hand work old).mono (fun _ entry => entry) fun _ leased => leased

/-- A harmless call loses no task: those it opens are announced, and a lease is deferred for each. -/
theorem Tracked.harmless (tracked : s.Tracked hand sent) {kind : AnswerKind} {operation : Operation kind}
    (harmless : operation.Harmless) (starts : operation.isStart = true → 0 < s.listening)
    {leases : List Registration}
    (answers : (s.advanced operation).Answers after
      (s.engine.step s.now (s.names.next s.engine) operation).started leases) : after.Tracked hand sent := by
  obtain ⟨_, instances, records⟩ := tracked.engine.harmless_opens s.now (s.names.next s.engine) harmless
  have tended := tracked.engine.harmless tracked.apart s.now harmless
  have listens (some' : (s.advanced operation).engine.instances ≠ []) : 0 < s.listening := by
    rcases instances some' with old | new
    · exact tracked.attached old
    · exact starts new
  refine Tracked.answered ?_ answers
  refine tracked.turn tended listens (tracked.engine.harmless_succeeds s.now _ harmless) (fun _ member => member)
    (fun _ member => .inl member) (tracked.proper_advanced answers) fun record member registered => ?_
  rcases records record member with old | ⟨opened, topic⟩
  · refine (tracked.covered record old registered).rehand fun work atHand covers => ?_
    exact .at_hand (List.mem_append_right _ atHand) covers
  · obtain ⟨registration, found⟩ := Option.isSome_iff_exists.mp registered
    have serves : (s.advanced operation).serving? ⟨record.task.definitionKey, record.task.activity,
        record.task.instanceId⟩ = some registration := by
      have topic' : (s.advanced operation).engine.topic? record.task.definitionKey record.task.activity =
        some record.task.topic := topic
      simp only [serving?, topic', Option.bind_some]
      exact found
    -- there is an instance now, so the dispatcher listens and has answered with a lease
    obtain ⟨run, atRun, _⟩ := tended.sound.belongs record member
    have deferred := answers.served tracked.alive (listens (List.ne_nil_of_mem atRun)) _ opened.announced
      registration serves
    refine .at_hand (List.mem_append_left _ (List.mem_map_of_mem deferred)) ⟨Registry.lookup_key found, ?_⟩
    intro expiry locked
    rw [opened.unlocked] at locked
    cases locked

theorem Tracked.call (tracked : s.Tracked hand sent) {kind : AnswerKind} {operation : Operation kind}
    (harmless : operation.Harmless) (starts : operation.isStart = true → 0 < s.listening) :
    (s.call operation).2.Tracked hand sent := by
  obtain ⟨leases, answers⟩ := s.answers_call operation
  exact tracked.harmless harmless starts answers

/-- A harmless call by the dispatcher, which starts no instances. -/
theorem Tracked.ask (tracked : s.Tracked hand sent) {kind : AnswerKind} (operation : Operation kind)
    (harmless : operation.Harmless) (still : operation.isStart = false) :
    (s.ask operation).2.Tracked hand sent := by
  have quiet : ∀ now result, (JournalEntry.mk now (.asked kind operation result)).leased = [] := by
    cases operation with
    | lease request => cases harmless
    | _ => exact fun _ _ => rfl
  obtain ⟨leases, answers⟩ := s.answers_ask operation quiet
  exact tracked.harmless harmless (fun starts => by rw [still] at starts; cases starts) answers

/-- A task may fail under a report if the report leaves no retries, or some work at hand is to lease the task
again when it is free. -/
def Forgives (s : System) (hand : List Work) (task : String) (report : FailureReport) : Prop :=
  report.retries = 0 ∨ ∃ work ∈ hand, ∀ old ∈ s.engine.tasks, old.task.id = task → ∀ expiry,
    deadline s.now report.delay = .ok expiry → work.Covers s.now (old.fail report expiry).task

/-- A failure that is made up for loses no task. -/
theorem Tracked.failure (tracked : s.Tracked hand sent) {task worker : String} {report : FailureReport}
    (forgives : (s.engine.step s.now (s.names.next s.engine) (.failure task worker report)).result = .ok () →
      s.Forgives hand task report)
    {leases : List Registration} {started : List ActivityStarted}
    (answers : (s.advanced (.failure task worker report)).Answers after started leases) :
    after.Tracked hand sent := by
  have tended := tracked.engine.failure s.now (s.names.next s.engine).incident task worker report
  obtain ⟨_, rewrites⟩ :=
    s.engine.rewrites_reportFailure s.now (s.names.next s.engine).incident task worker report
  have listens (some' : (s.advanced (.failure task worker report)).engine.instances ≠ []) : 0 < s.listening := by
    refine tracked.attached ?_
    rw [← rewrites.instances]
    exact some'
  refine Tracked.answered ?_ answers
  refine tracked.turn tended listens (Engine.Tended.failure_succeeds s.engine s.now _ task worker _ report)
    (fun _ member => member) (fun _ member => .inl member) (tracked.proper_advanced answers)
    fun record member registered => ?_
  rcases Engine.reportFailure_records record member with
    ⟨old, _⟩ | ⟨old, atOld, expiry, id, rfl, answered, accepted, _⟩
  · refine (tracked.covered record old registered).rehand fun work atHand covers => ?_
    exact .at_hand (List.mem_append_right _ atHand) covers
  · rcases forgives answered with terminal | ⟨work, atHand, covers⟩
    · exact .inl (congrArg some terminal)
    · exact .at_hand (List.mem_append_right _ atHand) (covers old atOld id expiry accepted)

theorem Tracked.askFailure (tracked : s.Tracked hand sent) (task worker : String) (report : FailureReport)
    (forgives : (s.engine.step s.now (s.names.next s.engine) (.failure task worker report)).result = .ok () →
      s.Forgives hand task report) : (s.ask (.failure task worker report)).2.Tracked hand sent := by
  obtain ⟨leases, answers⟩ := s.answers_ask (.failure task worker report) fun _ _ => rfl
  exact tracked.failure forgives answers

theorem Tracked.report (tracked : s.Tracked hand sent) {task worker : String} {report : FailureReport}
    (forgives : (s.engine.step s.now (s.names.next s.engine) (.failure task worker report)).result = .ok () →
      s.Forgives hand task report) : (s.report task worker report).2.Tracked hand sent := by
  have asked := tracked.askFailure task worker report forgives
  unfold System.report
  cases result : (s.engine.step s.now (s.names.next s.engine) (.failure task worker report)).result with
  | ok value =>
    rw [ask_eq result]
    exact asked
  | error reason =>
    rw [ask_eq result]
    exact asked.defers (defers_log _ _)

/-- The report of a failure by the worker itself is written into the task, if it is open. -/
theorem Tracked.struck (tracked : s.Tracked hand sent) (leased : lease ∈ s.leased) {report : FailureReport}
    (accepted : ∃ expiry, deadline s.now report.delay = .ok expiry) :
    ∀ record ∈ (s.engine.step s.now (s.names.next s.engine)
        (.failure lease.id s.settings.workerId report)).engine.tasks, record.task.id = lease.id →
      (s.engine.step s.now (s.names.next s.engine)
        (.failure lease.id s.settings.workerId report)).result = .ok () ∧
        ∃ old ∈ s.engine.tasks, ∃ expiry, old.task.id = lease.id ∧ record = old.fail report expiry ∧
          deadline s.now report.delay = .ok expiry := by
  obtain ⟨expiry, accepted⟩ := accepted
  intro record member id
  rcases Engine.reportFailure_records record member with
    ⟨old, spared⟩ | ⟨old, atOld, expiry, same, rfl, answered, due, _⟩
  · obtain ⟨_, _, owned⟩ := (tracked.genuine lease leased).own record old id
    have owned := tracked.engine.sound.ownedRecord_eq old owned
    rw [id] at owned
    exact absurd (Engine.reportFailure_accepted tracked.engine.available accepted owned _).1 (spared id)
  · exact ⟨answered, old, atOld, expiry, same, rfl, due⟩

/-- A call of the engine leaves the time and the terms that tasks are leased on as they are. -/
theorem ask_rest (s : System) {kind : AnswerKind} (operation : Operation kind) :
    (s.ask operation).2.engine = (s.engine.step s.now (s.names.next s.engine) operation).engine ∧
      (s.ask operation).2.now = s.now ∧ (s.ask operation).2.registry = s.registry ∧
      (s.ask operation).2.settings = s.settings := by
  obtain ⟨leases, answers⟩ := s.answers_call operation
  exact ⟨answers.defers.engine, answers.defers.now, answers.defers.registry, answers.defers.settings⟩

theorem report_rest (s : System) (task worker : String) (report : FailureReport) :
    (s.report task worker report).2.engine =
        (s.engine.step s.now (s.names.next s.engine) (.failure task worker report)).engine ∧
      (s.report task worker report).2.now = s.now := by
  have asked := s.ask_rest (.failure task worker report)
  unfold System.report
  cases result : (s.engine.step s.now (s.names.next s.engine) (.failure task worker report)).result with
  | ok value =>
    rw [ask_eq result]
    exact ⟨asked.1, asked.2.1⟩
  | error reason =>
    rw [ask_eq result]
    exact ⟨asked.1, asked.2.1⟩

theorem report_accepts (s : System) (task worker : String) (report : FailureReport) :
    (s.report task worker report).1 = true ↔
      (s.engine.step s.now (s.names.next s.engine) (.failure task worker report)).result = .ok () := by
  unfold System.report
  cases result : (s.engine.step s.now (s.names.next s.engine) (.failure task worker report)).result with
  | ok value =>
    rw [ask_eq result]
    exact iff_of_true rfl rfl
  | error reason =>
    rw [ask_eq result]
    exact iff_of_false (by simp) (by simp)

/-- The worker's report of a failed attempt settles it, with what is to lease the task again at hand. -/
theorem Tracked.reportOwn (tracked : s.Tracked (.process lease :: hand) sent) (more : List Work)
    (proper : ∀ work ∈ more, work.Proper s) (report : FailureReport)
    (accepted : ∃ expiry, deadline s.now report.delay = .ok expiry)
    (forgives : (s.engine.step s.now (s.names.next s.engine)
      (.failure lease.id s.settings.workerId report)).result = .ok () → s.Forgives more lease.id report) :
    (s.report lease.id s.settings.workerId report).2.Tracked (more ++ hand) sent := by
  have leased : lease ∈ s.leased := tracked.at_hand _ (List.mem_cons_self ..)
  have both : s.Tracked (more ++ .process lease :: hand) sent := by
    refine tracked.rehand (fun work member => ?_) fun _ _ work atHand covers =>
      .at_hand (List.mem_append_right _ atHand) covers
    rcases List.mem_append.mp member with new | old
    · exact proper work new
    · exact tracked.at_hand work old
  have reported := both.report fun answered => (forgives answered).imp_right
    fun ⟨work, atMore, covers⟩ => ⟨work, List.mem_append_left _ atMore, covers⟩
  obtain ⟨engine, now⟩ := s.report_rest lease.id s.settings.workerId report
  refine reported.rehand (fun work member => reported.at_hand work ?_) fun record member work atHand covers => ?_
  · rcases List.mem_append.mp member with new | old
    · exact List.mem_append_left _ new
    · exact List.mem_append_right _ (List.mem_cons_of_mem _ old)
  · rcases List.mem_append.mp atHand with new | old
    · exact .at_hand (List.mem_append_left _ new) covers
    · rcases List.mem_cons.mp old with rfl | still
      · -- the report is written into the task that the attempt was at
        rw [engine] at member
        obtain ⟨answered, old, atOld, expiry, id, rfl, due⟩ :=
          tracked.struck leased accepted record member covers.1.symm
        rcases forgives answered with terminal | ⟨work, atMore, covers'⟩
        · exact .inl (congrArg some terminal)
        · have covers' := covers' old atOld id expiry due
          rw [← now] at covers'
          exact .at_hand (List.mem_append_left _ atMore) covers'
      · exact .at_hand (List.mem_append_right _ still) covers

/-- An incident loses no task, whoever raises it. -/
theorem Tracked.raiseIncident (tracked : s.Tracked hand sent) (task worker message details : String) :
    (s.raiseIncident task worker message details).Tracked hand sent :=
  tracked.report fun _ => .inl rfl

/-- An attempt that ends in an incident is settled. -/
theorem Tracked.raiseOwn (tracked : s.Tracked (.process lease :: hand) sent) (message details : String) :
    (s.raiseIncident lease.id s.settings.workerId message details).Tracked hand sent :=
  tracked.reportOwn [] (by simp) (.terminal message details) (deadline_zero s.now) fun _ => .inl rfl

/-- A leased task that is told to end is settled once the engine has accepted it. -/
theorem Tracked.askEnd (tracked : s.Tracked (.process lease :: hand) sent) {operation : Operation .done}
    (harmless : operation.Harmless) (ends : operation.Ends lease.id)
    (accepted : (s.engine.step s.now (s.names.next s.engine) operation).result = .ok ()) :
    (s.ask operation).2.Tracked hand sent := by
  have asked : (s.ask operation).2.Tracked (.process lease :: hand) sent := by
    refine tracked.ask operation harmless ?_
    cases operation with
    | complete => rfl
    | businessError => rfl
    | _ => cases ends
  refine asked.drop fun record member holds => ?_
  rw [(s.ask_rest operation).1] at member
  have new := tracked.engine.orderly.newTo tracked.apart
  exact absurd holds.1.symm (tracked.engine.sound.gone tracked.engine.available new ends accepted record member)

/-- A leased task that the engine refused to end gets an incident instead. -/
theorem Tracked.askRefused (tracked : s.Tracked (.process lease :: hand) sent) {kind : AnswerKind}
    (operation : Operation kind) (harmless : operation.Harmless) (still : operation.isStart = false)
    (refusal : EngineError) :
    ((s.ask operation).2.raiseEngineIncident lease.id s.settings.workerId refusal).Tracked hand sent := by
  have raised := (tracked.ask operation harmless still).raiseOwn refusal.message (incidentDetails refusal.messages)
  rw [(s.ask_rest operation).2.2.2] at raised
  exact raised

theorem Tracked.afterCommit {work : Work} (tracked : s.Tracked (work :: hand) sent) (label : String) :
    (s.afterCommit label work).Tracked hand sent := by
  have shifts := (s.defers_afterCommit label work).shifts
  exact tracked.leave shifts

theorem Tracked.conclude (tracked : s.Tracked hand sent) (task : LeasedTask) (outcome : Outcome) :
    (s.conclude task outcome).2.Tracked hand sent :=
  (tracked.defers (defers_count _ (s.counters.countOutcome outcome))).defers (defers_log _ _)

end TaskLeasing.System
