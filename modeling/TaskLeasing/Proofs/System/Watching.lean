import TaskLeasing.Proofs.System.Keeping
import TaskLeasing.Proofs.Watchdog

namespace TaskLeasing

/-- The lock of a record lasts until a bound at least, unless the task is out of retries. -/
structure TaskRecord.HeldUntil (bound : Instant) (record : TaskRecord) : Prop where
  whole : ∀ expiry, record.task.lockExpiry = some expiry → expiry.Whole
  ordinary : ∀ expiry, record.task.lockExpiry = some expiry → expiry.leap = false
  held : record.task.retries ≠ some 0 → ∃ expiry, record.task.lockExpiry = some expiry ∧ bound ≤ expiry

/-- A record of a task that is out of retries, and whose lock is over. -/
structure TaskRecord.SpentBy (now : Instant) (record : TaskRecord) : Prop where
  retries : record.task.retries = some 0
  past : ∃ expiry, record.task.lockExpiry = some expiry ∧ expiry ≤ now

/-- Who is given a task that is held gets it after the bound only. -/
theorem TaskRecord.HeldUntil.le_now {bound now : Instant} {record : TaskRecord} {request : LeaseRequest}
    (held : record.HeldUntil bound) (fits : record.isLeasable request now = true) : bound ≤ now := by
  obtain ⟨_, _, retries, past⟩ := isLeasable_iff.mp fits
  obtain ⟨expiry, locked, later⟩ := held.held retries
  rw [locked, Option.all_some, decide_eq_true_eq] at past
  exact Instant.le_trans later past

theorem lasting_heldUntil {bound : Instant} (whole : bound.Whole) (task : String) :
    Lasting task (fun ask => ∀ report ∈ ask.failure? task, report.retries = 0)
      fun _ record => record.HeldUntil bound where
  later _ held := held
  becomes := by
    rintro now ask old record ordinary final rfl held became
    cases became with
    | kept spared unfailed => exact held
    | leased asked fits accepted member given once =>
      refine ⟨fun expiry locked => ?_, fun expiry locked => ?_,
        fun _ => ⟨_, rfl, le_deadline whole (held.le_now fits) accepted⟩⟩
      · exact Option.some.inj locked ▸ deadline_whole accepted
      · exact Option.some.inj locked ▸ deadline_ordinary ordinary accepted
    | failed reported accepted =>
      refine ⟨fun expiry locked => ?_, fun expiry locked => ?_,
        fun retries => absurd (congrArg some (final _ reported)) retries⟩
      · exact Option.some.inj locked ▸ deadline_whole accepted
      · exact Option.some.inj locked ▸ deadline_ordinary ordinary accepted

/-- What ends now at the latest is over. -/
theorem deadline_zero_le {now expiry : Instant} (ordinary : now.leap = false)
    (accepted : deadline now .zero = .ok expiry) : expiry ≤ now := by
  obtain ⟨later, reached, early⟩ := deadline_le ordinary accepted
  cases now.plus?_zero.symm.trans reached
  exact early

theorem lasting_spentBy (task : String) :
    Lasting task (fun ask => ∀ report ∈ ask.failure? task, report.retries = 0 ∧ report.delay = .zero)
      TaskRecord.SpentBy where
  later onward := fun ⟨retries, expiry, locked, past⟩ => ⟨retries, expiry, locked, Instant.le_trans past onward⟩
  becomes := by
    rintro now ask old record ordinary final rfl spent became
    cases became with
    | kept spared unfailed => exact spent
    | leased asked fits => exact absurd spent.retries (TaskRecord.isLeasable_iff.mp fits).2.2.1
    | failed reported accepted =>
      obtain ⟨none', undelayed⟩ := final _ reported
      rw [undelayed] at accepted
      exact ⟨congrArg some none', _, rfl, deadline_zero_le ordinary accepted⟩

namespace System

variable {s : System} {payload : String}

/-- What a watchdog found that fired, and did: the lock it watches, to the millisecond, which is not over, and a
failure that leaves no retries and no lock. -/
structure FiresOn (s : System) (watchdog : Watchdog) (record : TaskRecord) (current : Instant)
    (report : FailureReport) (after : System) : Prop where
  member : record ∈ s.engine.tasks
  id : record.task.id = watchdog.task
  locked : record.task.lockExpiry = some current
  guarded : watchdog.guards current = true
  lasts : s.now < current
  final : report.retries = 0 ∧ report.delay = .zero
  accepted : (s.engine.step s.now (s.names.next s.engine)
    (.failure record.task.id s.settings.workerId report)).result = .ok ()
  engine : after.engine = (s.engine.step s.now (s.names.next s.engine)
    (.failure record.task.id s.settings.workerId report)).engine

/-- Looking for a task changes nothing, and what is found is open. -/
theorem ask_findTask (s : System) (task : String) : (s.ask (.findTask task)).2.engine = s.engine ∧
    ∀ found, (s.ask (.findTask task)).1 = .ok (some found) →
      ∃ record ∈ s.engine.tasks, record.task = found ∧ record.task.id = task := by
  obtain ⟨result, engine⟩ := (s.does_ask (.findTask task)).engine
  have looks : s.engine.step s.now (s.names.next s.engine) (.findTask task) = s.engine.findTask task := rfl
  rw [looks] at result engine
  unfold Engine.findTask at result engine
  by_cases available : s.engine.available = true
  · simp only [available, not_true_eq_false, if_false] at result engine
    refine ⟨engine, fun found same => ?_⟩
    rw [show (s.ask (.findTask task)).1 = .ok ((s.engine.record? task).map TaskRecord.task) from result] at same
    obtain ⟨record, looked, rfl⟩ := Option.map_eq_some_iff.mp (Except.ok.inj same)
    exact ⟨record, List.mem_of_find?_eq_some looked, rfl, by simpa using List.find?_some looked⟩
  · simp only [available, Bool.false_eq_true, not_false_eq_true, if_true] at result engine
    refine ⟨engine, fun found same => ?_⟩
    rw [show (s.ask (.findTask task)).1 = .error Engine.switchedOff from result] at same
    cases same

/-- A watchdog fires on the lock that it watches, or leaves the engine alone. -/
theorem checkWatchdog_cases (s : System) (watchdog : Watchdog) :
    (s.checkWatchdog watchdog).1 = .ok .fired ∧
        (∃ record current report, s.FiresOn watchdog record current report (s.checkWatchdog watchdog).2) ∨
      (s.checkWatchdog watchdog).1 ≠ .ok .fired ∧ (s.checkWatchdog watchdog).2.engine = s.engine := by
  have looked := s.ask_findTask watchdog.task
  have does := s.does_ask (.findTask watchdog.task)
  unfold System.checkWatchdog
  split
  · next reason t result =>
    rw [result] at looked
    exact .inr ⟨by simp, looked.1⟩
  · next t result =>
    rw [result] at looked
    exact .inr ⟨by simp, looked.1⟩
  · next task t result =>
    rw [result] at looked does
    obtain ⟨engine, found⟩ := looked
    obtain ⟨record, member, rfl, id⟩ := found _ rfl
    split
    · exact .inr ⟨by simp, engine⟩
    · next current locked =>
      split
      · exact .inr ⟨by simp, engine⟩
      · next guarded =>
        split
        · exact .inr ⟨by simp, engine⟩
        · next lasts =>
          generalize details : "No response received for external task " ++ record.task.id ++ " (activity " ++
            record.task.activity ++ ") while locked until " ++ watchdog.lockExpiry.display = text
          obtain ⟨answered, struck⟩ := (t.does_ask (.failure record.task.id t.settings.workerId
            (.terminal (t.timeoutMessage record.task) text))).engine
          have settings : t.settings = s.settings := does.settings
          have now : t.now = s.now := does.now
          have names : t.names = s.names := does.names
          simp only at answered struck engine
          rw [engine, now, names, settings] at answered struck
          rw [now, Instant.not_le] at lasts
          simp only [settings]
          split
          · next reason u refused =>
            rw [refused] at answered struck
            refine .inr ⟨by simp, struck.trans ?_⟩
            exact Engine.reportFailure_refused answered.symm
          · next value u accepted =>
            rw [accepted] at answered struck
            exact .inl ⟨rfl, record, current, _, member, id, (Option.filter_eq_some_iff.mp locked).1,
              by simpa using guarded, lasts, ⟨rfl, rfl⟩, answered.symm, struck⟩

/-- The payload fires on the lock that it names, or leaves the engine alone. -/
theorem fireWatchdog_cases (s : System) (payload : String) :
    (s.fireWatchdog payload).1 = .ok .fired ∧ (∃ watchdog record current report,
        Watchdog.ofPayload? payload = some watchdog ∧
          s.FiresOn watchdog record current report (s.fireWatchdog payload).2) ∨
      (s.fireWatchdog payload).1 ≠ .ok .fired ∧ (s.fireWatchdog payload).2.engine = s.engine := by
  unfold System.fireWatchdog
  split
  · exact .inr ⟨by simp, rfl⟩
  · next watchdog read =>
    have checked := s.checkWatchdog_cases watchdog
    split
    · next reason t result =>
      rw [result] at checked
      rcases checked with ⟨fired, _⟩ | ⟨_, engine⟩
      · cases fired
      · exact .inr ⟨by simp, engine⟩
    · next verdict t result =>
      rw [result] at checked
      rcases checked with ⟨fired, record, current, report, fires⟩ | ⟨other, engine⟩
      · exact .inl ⟨congrArg _ (Except.ok.inj fired), watchdog, record, current, report, read, { fires with }⟩
      · exact .inr ⟨fun same => other (by rw [Except.ok.inj same]), engine⟩

/-- The payload that a move runs a watchdog with, if it runs one. -/
def watched? (s : System) : Move → Option String
  | .fireWatchdog payload => some payload
  | .runJob id =>
    ((s.engine.jobs.find? fun job => job.id = id ∧ ¬ job.executed ∧ job.due ≤ s.now).filter fun job =>
      s.handler? job.payload.handlerType = some .watchdog ∧ s.isAlive = true).map fun job =>
        job.payload.configuration
  | _ => none

/-- Whether a watchdog with a payload fires in a move. -/
def Fires (s : System) (move : Move) (payload : String) : Prop :=
  s.watched? move = some payload ∧ (s.fireWatchdog payload).1 = .ok .fired

/-- A move that runs a watchdog does nothing else to the engine, but that the watchdog's job is over. -/
theorem step_watched {move : Move} {payload : String} (watched : s.watched? move = some payload) :
    (s.step move).2.engine = (s.fireWatchdog payload).2.engine ∨
      ∃ job, (s.step move).2.engine = (s.fireWatchdog payload).2.engine.markExecuted job := by
  cases move with
  | fireWatchdog other =>
    cases watched
    exact .inl rfl
  | runJob id =>
    simp only [watched?, Option.map_eq_some_iff, Option.filter_eq_some_iff, decide_eq_true_eq] at watched
    obtain ⟨job, ⟨found, handled, alive⟩, rfl⟩ := watched
    refine .inr ⟨id, ?_⟩
    simp only [System.step, System.runJob, found, handled, alive, if_true]
  | _ => cases watched

theorem Fires.on {move : Move} {task : String} {expiry : Instant}
    (fires : s.Fires move (Watchdog.mk task expiry).payload) :
    ∃ record current report after, s.FiresOn ⟨task, expiry.truncate⟩ record current report after ∧
      ((s.step move).2.engine = after.engine ∨ ∃ job, (s.step move).2.engine = after.engine.markExecuted job) := by
  obtain ⟨watched, fired⟩ := fires
  obtain ⟨_, watchdog, record, current, report, read, fires⟩ := (s.fireWatchdog_cases _).resolve_right
    fun still => still.1 fired
  obtain rfl := Watchdog.eq_of_ofPayload?_payload read
  exact ⟨record, current, report, _, fires, step_watched watched⟩

/-- The millisecond tells locks apart. -/
theorem FiresOn.current_eq {task : String} {expiry current : Instant} {record : TaskRecord} {report : FailureReport}
    {after : System} (fires : s.FiresOn ⟨task, expiry.truncate⟩ record current report after)
    (whole : current.Whole) (bound : expiry.Whole) (ordinary : current.leap = false)
    (ordinary' : expiry.leap = false) : current = expiry := by
  have same : current.millis = expiry.truncate.millis := by simpa [Watchdog.guards] using fires.guarded
  rw [bound] at same
  exact whole.eq_of_millis bound ordinary ordinary' same

/-- A watchdog that fires strikes the task's record with a failure that leaves no retries and is not waited after. -/
theorem Fires.strikes {move : Move} {task : String} {expiry : Instant} {P Q : TaskRecord → Prop}
    (fires : s.Fires move (Watchdog.mk task expiry).payload) (apart : s.names.Distinct)
    (keeps : s.engine.Keeps s.names task P)
    (struck : ∀ old report bound, P old → report.retries = 0 → bound ≤ s.now → Q (old.fail report bound)) :
    (s.step move).2.engine.Keeps s.names task Q := by
  obtain ⟨record, current, report, after, fires, engine⟩ := fires.on
  have heard : after.engine.Keeps s.names task Q := by
    rw [fires.engine]
    refine keeps.hear (Q := Q) apart
      (show (⟨.done, .failure record.task.id s.settings.workerId report, .ok ()⟩ : Asked).result = _ from
        fires.accepted.symm) fun old record' sameId holds became => ?_
    have reported : Asked.failure? old.task.id
        ⟨.done, .failure record.task.id s.settings.workerId report, .ok ()⟩ = some report :=
      if_pos (fires.id.trans sameId.symm)
    cases became with
    | kept spared unfailed =>
      rw [reported] at unfailed
      cases unfailed
    | leased asked => cases asked
    | failed reported' accepted =>
      rw [reported] at reported'
      cases reported'
      rw [fires.final.2] at accepted
      exact struck old report _ holds fires.final.1 (deadline_zero_le s.ordinary accepted)
  rcases engine with same | ⟨job, same⟩
  · exact same ▸ heard
  · exact same ▸ heard.markExecuted job

/-- A task whose watchdog fires is out of retries, and its lock is over. -/
theorem Fires.spent {move : Move} {task : String} {expiry : Instant} {P : TaskRecord → Prop}
    (fires : s.Fires move (Watchdog.mk task expiry).payload) (apart : s.names.Distinct)
    (keeps : s.engine.Keeps s.names task P) :
    (s.step move).2.engine.Keeps s.names task (TaskRecord.SpentBy s.now) :=
  fires.strikes apart keeps fun _ _ _ _ none' past => ⟨congrArg some none', _, rfl, past⟩

/-- A task that a move leased is as the lease left it. -/
theorem leased_granted (apart : s.names.Distinct) (orderly : s.engine.Orderly s.names) {granting : Move} {ask : Asked}
    (asked : ask ∈ s.asksIn granting) {lease : LeasedTask} (member : lease ∈ ask.leased) :
    ∃ request, ask.request? = some request ∧ deadline s.now request.lock = .ok lease.lockExpiry ∧
      (s.step granting).2.engine.Keeps s.names lease.id (TaskRecord.LeasedAs lease request.worker) := by
  obtain ⟨_, ⟨e, hears, engine⟩, lone⟩ := s.turns_step granting
  rcases lone with unleased | ⟨only, single⟩
  · rw [unleased ask asked] at member
    cases member
  · rw [single] at asked hears
    obtain rfl := List.mem_singleton.mp asked
    obtain ⟨heard, rfl⟩ := hears
    obtain ⟨request, asks, accepted, keeps⟩ := orderly.keeps_leased apart heard member
    refine ⟨request, asks, accepted, ?_⟩
    rcases engine with same | ⟨job, same⟩
    · exact same ▸ keeps
    · exact same ▸ keeps.markExecuted job

/-- The watchdog of a lock fires only while no one was given the task again, and before the lock is over. -/
theorem Fires.own {task : String} {bound : Instant} (apart : s.names.Distinct) (whole : bound.Whole)
    (ordinary : bound.leap = false) (held : s.engine.Keeps s.names task (TaskRecord.HeldUntil bound))
    {moves : List Move} (forward : s.Forward moves)
    (final : ∀ ask ∈ s.asksOf moves, ∀ report ∈ ask.failure? task, report.retries = 0) {firing : Move}
    (fires : (s.run moves).Fires firing (Watchdog.mk task bound).payload) :
    (∀ ask ∈ s.asksOf moves, ∀ lease ∈ ask.leased, lease.id ≠ task) ∧ (s.run moves).now < bound := by
  have lasting := lasting_heldUntil whole task
  obtain ⟨record, current, report, _, fires, _⟩ := fires.on
  have keeps := (lasting.run apart held forward final).records record fires.member fires.id
  have lasts : (s.run moves).now < bound := by
    rw [← fires.current_eq (keeps.whole current fires.locked) whole (keeps.ordinary current fires.locked) ordinary]
    exact fires.lasts
  refine ⟨fun ask among lease member sameId => ?_, lasts⟩
  obtain ⟨e, time, past, keeps, heard⟩ := lasting.heard apart held forward final among
  obtain ⟨request, _, record', atRecord, fits, _, given⟩ := Engine.leased_from heard member
  have id : record'.task.id = task := (congrArg LeasedTask.id given).symm.trans sameId
  have reached := Instant.le_trans ((keeps.records record' atRecord id).le_now fits) past
  exact absurd lasts (Instant.not_lt.mpr reached)

/-- Between two times that watchdogs of a task fire, a failure has set its lock anew. -/
theorem Fires.again {task : String} {P : TaskRecord → Prop} (apart : s.names.Distinct)
    (keeps : s.engine.Keeps s.names task P) {first second : Move} {between : List Move} {expiry later : Instant}
    (fires : s.Fires first (Watchdog.mk task expiry).payload) (onward : s.now ≤ (s.step first).2.now)
    (forward : (s.step first).2.Forward between)
    (final : ∀ ask ∈ (s.step first).2.asksOf between, ∀ report ∈ ask.failure? task, report.retries = 0)
    (again : ((s.step first).2.run between).Fires second (Watchdog.mk task later).payload) :
    ∃ ask ∈ (s.step first).2.asksOf between, ∃ report ∈ ask.failure? task, report.delay ≠ .zero := by
  by_contra none'
  have undelayed : ∀ ask ∈ (s.step first).2.asksOf between, ∀ report ∈ ask.failure? task,
      report.retries = 0 ∧ report.delay = .zero := fun ask among report reported =>
    ⟨final ask among report reported, by_contra fun delayed => none' ⟨ask, among, report, reported, delayed⟩⟩
  have spent := (fires.spent apart keeps).imp fun record => (lasting_spentBy task).later onward
  have named := (s.turns_step first).names
  rw [← named] at apart spent
  have still := (lasting_spentBy task).run apart spent forward undelayed
  obtain ⟨record, current, report, _, fires, _⟩ := again.on
  obtain ⟨bound, locked, past⟩ := (still.records record fires.member fires.id).past
  obtain rfl := Option.some.inj (locked.symm.trans fires.locked)
  exact absurd fires.lasts (Instant.not_lt.mpr past)

end System

end TaskLeasing
