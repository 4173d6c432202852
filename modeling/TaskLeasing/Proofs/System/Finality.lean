import TaskLeasing.Proofs.System.Inquiry

namespace TaskLeasing

/-- A call that reports no failure of a task that leaves it retries. -/
def Operation.LeavesNone (task : String) {kind : AnswerKind} : Operation kind → Prop
  | .failure id _ report => id = task → report.retries = 0
  | _ => True

/-- A move in which others neither report a failure of a task that leaves it retries nor have a lease of it
processed. -/
def Move.Abstains (task : String) : Move → Prop
  | .operate _ operation => operation.LeavesNone task
  | .process lease => lease.id ≠ task
  | _ => True

theorem Asked.failure?_eq_some {task id worker : String} {given report : FailureReport}
    {result : Except EngineError Unit}
    (reported : Asked.failure? task ⟨.done, .failure id worker given, result⟩ = some report) :
    id = task ∧ given = report := by
  cases result with
  | error reason => cases reported
  | ok value => simpa only [failure?, Option.ite_none_right_eq_some, Option.some.injEq] using reported

/-- A task that is out of retries as long as it is open, and of which no lease is on its way to a processor or at
one. -/
structure System.Spent (s : System) (task : String) : Prop where
  apart : s.names.Distinct
  numbered : s.host.Numbered
  keeps : s.engine.Keeps s.names task fun record => record.task.retries = some 0
  clear : ∀ lease ∈ s.handed ++ s.attempted, lease.id ≠ task

/-- A task is out of retries once a failure of it was accepted that leaves none, and as long as none is accepted that
leaves some. -/
theorem Engine.Hears.exhausts {e after : Engine} {names : Naming} {now : Instant} {task : String} {asks : List Asked}
    (hears : e.Hears now names asks after) (apart : names.Distinct) (orderly : e.Orderly names)
    (final : ∀ ask ∈ asks, ∀ report ∈ ask.failure? task, report.retries = 0) {ask : Asked} (member : ask ∈ asks)
    {report : FailureReport} (failed : ask.failure? task = some report) :
    after.Keeps names task fun record => record.task.retries = some 0 := by
  induction asks generalizing e with
  | nil => cases member
  | cons first rest ih =>
    obtain ⟨heard, hears⟩ := hears
    rcases List.mem_cons.mp member with rfl | later
    · -- the failure is one of an open task
      have issued : e.Issued names task := by
        obtain ⟨kind, operation, result⟩ := ask
        cases operation with
        | failure id worker given =>
          obtain ⟨rfl, rfl⟩ := Asked.failure?_eq_some failed
          cases result with
          | error reason => cases failed
          | ok value =>
            obtain ⟨expiry, record, _, _, owned⟩ := Engine.reportFailure_ok heard.symm
            obtain ⟨atRecord, id, _⟩ := Engine.ownedRecord_ok owned
            exact id ▸ orderly.issued atRecord
        | _ => cases failed
      have before : e.Keeps names task fun _ => True := ⟨orderly, issued, fun _ _ _ => trivial⟩
      have struck := before.hear (Q := fun record => record.task.retries = some 0) apart heard
        fun old record id _ became => by
          subst id
          cases became with
          | kept _ unfailed =>
            rw [failed] at unfailed
            cases unfailed
          | leased _ _ _ leased =>
            rw [Asked.failure?_leased leased] at failed
            cases failed
          | failed reported => exact congrArg some (final ask (List.mem_cons_self ..) _ reported)
      refine hears.keeps (P := fun e => e.Keeps names task fun record => record.task.retries = some 0) struck
        fun e keeps other among heard => ?_
      refine keeps.hear apart heard fun old record id exhausted became => ?_
      cases became with
      | kept => exact exhausted
      | leased => exact exhausted
      | failed reported => exact congrArg some (final other (List.mem_cons_of_mem _ among) _ (id ▸ reported))
    · exact ih hears (orderly.step apart now first.operation) (fun other among =>
        final other (List.mem_cons_of_mem _ among)) later

namespace System

variable {s : System} {task : String} {move : Move}

/-- A task stays out of retries, and unleased, while no failure of it is accepted that leaves it some. -/
theorem keeps_exhausted (apart : s.names.Distinct)
    (keeps : s.engine.Keeps s.names task fun record => record.task.retries = some 0)
    (final : ∀ ask ∈ s.asksIn move, ∀ report ∈ ask.failure? task, report.retries = 0) :
    ((s.step move).2.engine.Keeps s.names task fun record => record.task.retries = some 0) ∧
      ∀ ask ∈ s.asksIn move, ∀ lease ∈ ask.leased, lease.id ≠ task := by
  have turns := s.turns_step move
  -- what is out of retries cannot be leased, and only a failure sets retries
  have each : ∀ e : Engine, (e.Keeps s.names task fun record => record.task.retries = some 0) →
      ∀ ask ∈ s.asksIn move, ask.result = (e.step s.now (s.names.next e) ask.operation).result →
        (e.step s.now (s.names.next e) ask.operation).engine.Keeps s.names task fun record =>
          record.task.retries = some 0 := by
    intro e keeps ask member heard
    refine keeps.hear apart heard fun old record id exhausted became => ?_
    cases became with
    | kept => exact exhausted
    | leased _ fits => exact exhausted
    | failed reported => exact congrArg some (final ask member _ (id ▸ reported))
  refine ⟨turns.keeps keeps (fun _ job keeps => keeps.markExecuted job) each, fun ask member lease leased id => ?_⟩
  obtain ⟨_, ⟨e, hears, _⟩, _⟩ := turns
  obtain ⟨before, keeps, heard⟩ := hears.during keeps each member
  obtain ⟨request, _, record, atRecord, fits, _, given⟩ := Engine.leased_from heard leased
  obtain ⟨_, _, remains, _⟩ := TaskRecord.isLeasable_iff.mp fits
  exact remains (keeps.records record atRecord ((congrArg LeasedTask.id given).symm.trans id))

/-- A lease of a task that was out of retries comes after a failure of it that left it some. -/
theorem leased_after_failure (apart : s.names.Distinct)
    (keeps : s.engine.Keeps s.names task fun record => record.task.retries = some 0) {earlier : List Move}
    {leasing : Move} {ask : Asked} (asked : ask ∈ (s.run earlier).asksIn leasing) {lease : LeasedTask}
    (member : lease ∈ ask.leased) (id : lease.id = task) :
    ∃ other ∈ s.asksOf earlier, ∃ report ∈ other.failure? task, report.retries ≠ 0 := by
  by_contra none'
  have final : ∀ other ∈ s.asksOf earlier, ∀ report ∈ other.failure? task, report.retries = 0 := by
    intro other among report reported
    by_contra some'
    exact none' ⟨other, among, report, reported, some'⟩
  clear none'
  induction earlier generalizing s with
  | nil =>
    have asked : ask ∈ s.asksIn leasing := asked
    -- the lease is the only call of its move
    have unfailed : ∀ other ∈ s.asksIn leasing, ∀ report ∈ other.failure? task, report.retries = 0 := by
      rcases (s.turns_step leasing).lone with unleased | ⟨only, single⟩
      · rw [unleased ask asked] at member
        cases member
      · intro other among report reported
        rw [single] at asked among
        rw [List.mem_singleton.mp among, ← List.mem_singleton.mp asked, Asked.failure?_leased member] at reported
        cases reported
    exact (keeps_exhausted apart keeps unfailed).2 ask asked lease member id
  | cons move rest ih =>
    have stepped := (keeps_exhausted apart keeps fun other among =>
      final other (List.mem_append_left _ among)).1
    have names := (s.turns_step move).names
    rw [← names] at apart stepped
    exact ih apart stepped asked fun other among => final other (List.mem_append_right _ among)

/-- The dispatcher reports no failure of a task that leaves it retries, while no processor is at the task. -/
theorem Spent.final (spent : s.Spent task) (abstains : move.Abstains task) :
    ∀ ask ∈ s.asksIn move, ∀ report ∈ ask.failure? task, report.retries = 0 := by
  intro ask member report reported
  by_cases others : ∀ kind operation, move ≠ .operate kind operation
  · have inquires := s.inquires_step move others
    generalize s.asksIn move = asks at inquires member
    cases inquires with
    | leases =>
      rw [List.mem_singleton.mp member] at reported
      cases reported
    | @fails call lease _ atCall attempt failure =>
      have apart := spent.clear lease (List.mem_append_right _ (List.mem_filterMap.mpr ⟨call, atCall, attempt⟩))
      rw [List.mem_singleton.mp member] at reported
      exact absurd (Asked.failure?_eq_some reported).1 apart
    | tamely _ tame => exact ask.failure?_spares ((tame ask member).spares task) reported
  · push Not at others
    obtain ⟨kind, operation, rfl⟩ := others
    obtain rfl := List.mem_singleton.mp member
    cases operation with
    | failure id worker given =>
      obtain ⟨id, rfl⟩ := Asked.failure?_eq_some reported
      exact abstains id
    | _ => cases reported

/-- Of a task that has failed for good nothing more is leased, and no processor is called for it. -/
theorem Spent.step (spent : s.Spent task) (abstains : move.Abstains task) : (s.step move).2.Spent task ∧
    (∀ ask ∈ s.asksIn move, ∀ lease ∈ ask.leased, lease.id ≠ task) ∧
      ∀ call ∈ (s.step move).1.call?, ∀ lease ∈ call.subject.attempt?, lease.id ≠ task := by
  obtain ⟨keeps, unleased⟩ := keeps_exhausted spent.apart spent.keeps (spent.final abstains)
  have names := (s.turns_step move).names
  obtain ⟨_, passes⟩ := passes_step spent.numbered move
  have given : ∀ lease ∈ s.leasedIn move, lease.id ≠ task := by
    intro lease member
    obtain ⟨registration, leases, among⟩ : ∃ registration, s.leasesFor? move = some registration ∧
        lease ∈ (s.leaseAsk registration).leased := by
      unfold leasedIn at member
      cases leases : s.leasesFor? move with
      | none =>
        rw [leases] at member
        cases member
      | some registration =>
        rw [leases] at member
        exact ⟨registration, rfl, member⟩
    exact unleased _ (asksIn_leases leases ▸ List.mem_singleton_self _) lease among
  have called : ∀ call ∈ (s.step move).1.call?, ∀ lease ∈ call.subject.attempt?, lease.id ≠ task := by
    intro call calling lease attempt
    rcases call?_taken calling attempt with rfl | taken
    · exact abstains
    · refine spent.clear lease (List.mem_append_left _ ?_)
      exact List.mem_flatMap.mpr ⟨_, taken?_mem spent.numbered taken, List.mem_singleton_self _⟩
  refine ⟨⟨names ▸ spent.apart, passes.numbered, names ▸ keeps, fun lease member => ?_⟩, unleased, called⟩
  rcases List.mem_append.mp member with onWay | atProcessor
  · have origin := (handed_step spent.numbered move).mem_iff.mp (List.mem_append_left _ onWay)
    rcases List.mem_append.mp origin with old | leased
    · exact spent.clear lease (List.mem_append_left _ old)
    · exact given lease leased
  · rcases mem_attempted_step spent.numbered atProcessor with old | ⟨call, calling, attempt⟩
    · exact spent.clear lease (List.mem_append_right _ old)
    · exact called call calling lease attempt

theorem Spent.run (spent : s.Spent task) {moves : List Move} (abstain : ∀ move ∈ moves, move.Abstains task) :
    (∀ ask ∈ s.asksOf moves, ∀ lease ∈ ask.leased, lease.id ≠ task) ∧
      ∀ call ∈ s.callsOf moves, ∀ lease ∈ call.subject.attempt?, lease.id ≠ task := by
  induction moves generalizing s with
  | nil => exact ⟨by simp [asksOf], by simp [callsOf]⟩
  | cons move rest ih =>
    obtain ⟨later, unleased, uncalled⟩ := spent.step (abstain move (List.mem_cons_self ..))
    obtain ⟨unleased', uncalled'⟩ := ih later fun other member => abstain other (List.mem_cons_of_mem _ member)
    refine ⟨fun ask member => ?_, fun call member => ?_⟩
    · exact (List.mem_append.mp member).elim (unleased ask) (unleased' ask)
    · exact (List.mem_append.mp member).elim (fun first => uncalled call (Option.mem_toList.mp first)) (uncalled' call)

/-- In one move no failure leaves a task retries beside one that leaves it none. -/
theorem final_of_terminal {ask : Asked} (member : ask ∈ s.asksIn move) {report : FailureReport}
    (failed : ask.failure? task = some report) (terminal : report.retries = 0) :
    ∀ other ∈ s.asksIn move, ∀ report ∈ other.failure? task, report.retries = 0 := by
  have alone {only : Asked} (single : s.asksIn move = [only]) :
      ∀ other ∈ s.asksIn move, ∀ report ∈ other.failure? task, report.retries = 0 := by
    intro other among given reported
    rw [single] at member among
    rw [List.mem_singleton.mp among, ← List.mem_singleton.mp member, failed] at reported
    exact Option.some.inj reported ▸ terminal
  by_cases others : ∀ kind operation, move ≠ .operate kind operation
  · have inquires := s.inquires_step move others
    generalize same : s.asksIn move = asks at inquires
    cases inquires with
    | leases => exact same ▸ alone same
    | fails => exact same ▸ alone same
    | tamely _ tame =>
      exact fun other among _ reported => other.failure?_spares ((tame other among).spares task) reported
  · push Not at others
    obtain ⟨kind, operation, rfl⟩ := others
    exact alone rfl

/-- How far a terminal failure is final. Once one was accepted, the task is leased by no one until a failure of it is
accepted that leaves it retries. If no lease of the task was on its way to a processor or at one, and others neither
report such a failure nor have a lease of it processed, it is never again leased or given to a processor, whatever
else happens. -/
theorem run_terminal (names : Naming) (now : Instant) (settings : Settings) (gated : Bool) (before after : List Move)
    (distinct : names.Distinct) {failing : Move} {task : String}
    (failed : ∃ ask ∈ ((create names now settings gated).run before).asksIn failing,
      ∃ report ∈ ask.failure? task, report.retries = 0) :
    let s := (((create names now settings gated).run before).step failing).2
    (∀ earlier leasing later, after = earlier ++ leasing :: later → ∀ ask ∈ (s.run earlier).asksIn leasing,
      ∀ lease ∈ ask.leased, lease.id = task →
        ∃ other ∈ s.asksOf earlier, ∃ report ∈ other.failure? task, report.retries ≠ 0) ∧
      ((∀ lease ∈ s.handed ++ s.attempted, lease.id ≠ task) → (∀ move ∈ after, move.Abstains task) →
        (∀ ask ∈ s.asksOf after, ∀ lease ∈ ask.leased, lease.id ≠ task) ∧
          ∀ call ∈ s.callsOf after, ∀ lease ∈ call.subject.attempt?, lease.id ≠ task) := by
  intro s
  obtain ⟨ask, asked, report, failed, terminal⟩ := failed
  have sourced : s.Sourced ((create names now settings gated).LeasedIn (before ++ [failing])) := by
    have run := Sourced.run (sourced_create names now settings gated) (before ++ [failing])
    rwa [run_append] at run
  have turns := ((create names now settings gated).run before).turns_step failing
  obtain ⟨apart, orderly⟩ := in_order_created distinct now settings gated before
  have keeps : s.engine.Keeps s.names task fun record => record.task.retries = some 0 := by
    obtain ⟨e, hears, engine⟩ := turns.engine
    have exhausted := hears.exhausts apart orderly (final_of_terminal asked failed terminal) asked failed
    have named : s.names = ((create names now settings gated).run before).names := turns.names
    rw [named]
    rcases engine with same | ⟨job, same⟩
    · exact same ▸ exhausted
    · exact same ▸ exhausted.markExecuted job
  have apart : s.names.Distinct := turns.names ▸ apart
  refine ⟨fun earlier leasing later _ ask asked lease member id => leased_after_failure apart keeps asked member id,
    fun clear abstain => ?_⟩
  have spent : s.Spent task := ⟨apart, sourced.numbered, keeps, clear⟩
  exact spent.run abstain

/-- A number of seconds after the epoch. -/
def secondsOn (seconds : UInt64) : Instant := (Instant.epoch.plus? (.ofSeconds seconds)).getD .epoch

/-- A dispatcher that leases its one task for a second and calls the task's processor. -/
def oneSecond : List Move :=
  [.register "order" "money" (some (.ofSeconds 1)) .all .sync,
    .operate .done (.deploy ⟨"order", [⟨"pay", .serviceTask, some "money", none⟩]⟩),
    .operate .name (.start "order" none .empty), .dispatch ⟨"order", "money"⟩, .start 0, .start 1]

/-- The failure of the call for good. -/
def goneForGood (call : Nat) : Move := .answer call .process (.failed (.plain "gone"))

/-- A minute later a sweep finds a task that has failed for good, and leaves it alone. -/
theorem run_terminal_swept :
    let s := (((create unaryNames .epoch (Settings.defaults "w") false).run oneSecond).step (goneForGood 1)).2
    let after : List Move := [.passTo (secondsOn 60), .sweep, .start 2, .start 3]
    s.engine.hasOpenIncident "t" = true ∧ (s.asksOf after).length = 1 ∧
      ∀ ask ∈ s.asksOf after, ∀ lease ∈ ask.leased, lease.id ≠ "t" := by
  refine ⟨rfl, rfl, ?_⟩
  have asked : ((create unaryNames .epoch (Settings.defaults "w") false).run oneSecond).asksIn (goneForGood 1) =
      [⟨.done, .failure "t" "w" (.terminal "gone" "gone"), .ok ()⟩] := rfl
  have failed : ∃ ask ∈ ((create unaryNames .epoch (Settings.defaults "w") false).run oneSecond).asksIn (goneForGood 1),
      ∃ report ∈ ask.failure? "t", report.retries = 0 := by
    rw [asked]
    exact ⟨_, List.mem_singleton_self _, .terminal "gone" "gone", rfl, rfl⟩
  have final := run_terminal unaryNames .epoch (Settings.defaults "w") false oneSecond
    [.passTo (secondsOn 60), .sweep, .start 2, .start 3] unaryNames_distinct failed
  have nothing : (((create unaryNames .epoch (Settings.defaults "w") false).run oneSecond).step
    (goneForGood 1)).2.handed = [] ∧ (((create unaryNames .epoch (Settings.defaults "w") false).run oneSecond).step
      (goneForGood 1)).2.attempted = [] := ⟨rfl, rfl⟩
  exact (final.2 (by simp [nothing]) (by simp [Move.Abstains])).1

/-- The lease runs out while the processor is at the task, the task is leased again, and a second call goes on beside
the first. -/
def overlapping : List Move := oneSecond ++ [.passTo (secondsOn 2), .dispatch ⟨"order", "money"⟩, .start 2, .start 3]

/-- The first call ends with a retryable failure, and the retry is taken up when its delay is over. -/
def lateRetry : List Move :=
  [.answer 1 .process (.failed (.retryable ⟨"busy", 3, [], none⟩)), .start 4, .passTo (secondsOn 60), .wake 5,
    .start 6, .start 7, .start 8]

/-- The second call fails the task for good; then the first one reports its failure under the same name, which gives
the task retries again: it is leased and given to a processor once more. -/
theorem terminal_failure_revived :
    let s := create unaryNames .epoch (Settings.defaults "w") false
    let t := ((s.run overlapping).step (goneForGood 2)).2
    s.Forward (overlapping ++ goneForGood 2 :: lateRetry) ∧
      (((s.run overlapping).asksIn (goneForGood 2)).flatMap fun ask =>
        (ask.failure? "t").toList.map FailureReport.retries) = [0] ∧
      ((t.asksOf lateRetry).flatMap fun ask => ask.leased.map LeasedTask.id) = ["t"] ∧
      (t.callsOf lateRetry).map ProcessorCall.task = ["t"] :=
  ⟨by decide +kernel, rfl, rfl, rfl⟩

end System

end TaskLeasing
