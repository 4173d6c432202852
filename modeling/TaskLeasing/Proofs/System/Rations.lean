import TaskLeasing.Proofs.Course
import TaskLeasing.Proofs.System.Coverage
import TaskLeasing.Proofs.System.Keeping

namespace TaskLeasing

/-- A call that leaves a task no retries if it reports a failure of it, and the engine on. -/
def Operation.Spares (task : String) {kind : AnswerKind} : Operation kind → Prop
  | .failure id _ report => id = task → report.retries = 0
  | .setAvailable available => available = true
  | _ => True

theorem Operation.Tame.spares {kind : AnswerKind} {operation : Operation kind} (tame : operation.Tame) (task : String) :
    operation.Spares task := by
  cases operation with
  | failure id worker report => exact fun _ => tame
  | setAvailable available => exact tame
  | _ => trivial

/-- The leases of a task that a call gave in the name of a worker. -/
def Asked.granted (worker task : String) : Asked → List LeasedTask
  | ⟨.tasks, .lease request, .ok tasks⟩ =>
    if request.worker = worker then tasks.filter fun lease => lease.id = task else []
  | _ => []

/-- A record that is out of retries, or has those that were left last and is locked until all waits are over. -/
def TaskRecord.Rested (record : TaskRecord) (events : List AttemptEvent) (left : Option UInt32) : Prop :=
  record.task.retries = some 0 ∨
    record.task.retries = left ∧ ∀ time, record.task.FreeAt time → ∀ event ∈ events, event.OverAt time

/-- A lease that an attempt can be made on: it has the retries that were left last, was given after all waits, and
if its task is still open and can be tried, it is under the lock of the lease. -/
structure LeasedTask.Current (lease : LeasedTask) (e : Engine) (now : Instant) (worker : String)
    (events : List AttemptEvent) (left : Option UInt32) : Prop where
  retries : lease.retries = left
  remains : left ≠ some 0
  waited : ∀ event ∈ events, event.OverAt now
  owned : ∀ record ∈ e.tasks, record.task.id = lease.id → record.task.retries = some 0 ∨
    record.task.lockExpiry = some lease.lockExpiry ∧ record.task.worker = some worker

/-- An engine in order that gives a task to be tried as often as is left, and to one attempt at a time: of the
leases underway no two last, and the one that does is current. -/
structure Engine.Rations (e : Engine) (names : Naming) (now : Instant) (worker task : String)
    (underway : List LeasedTask) (events : List AttemptEvent) (left : Option UInt32) : Prop where
  orderly : e.Orderly names
  available : e.available = true
  opened : e.Issued names task ∨ underway = [] ∧ events = [] ∧ left = none
  records : ∀ record ∈ e.tasks, record.task.id = task → record.Rested events left
  named : ∀ lease ∈ underway, lease.id = task
  alone : underway.Pairwise fun one other => ¬ (now < one.lockExpiry ∧ now < other.lockExpiry)
  current : ∀ lease ∈ underway, now < lease.lockExpiry → lease.Current e now worker events left

theorem AttemptEvent.OverAt.mono {event : AttemptEvent} {now time : Instant} (past : event.OverAt now)
    (onward : now ≤ time) : event.OverAt time := by
  cases event with
  | called => trivial
  | failed =>
    obtain ⟨expiry, accepted, before⟩ := past
    exact ⟨expiry, accepted, Instant.le_trans before onward⟩

/-- Waits that are over now are over when a lock set now ends. -/
theorem AttemptEvent.OverAt.deadline {event : AttemptEvent} {now expiry : Instant} {span : Span}
    (past : event.OverAt now) (accepted : deadline now span = .ok expiry) : event.OverAt expiry := by
  cases event with
  | called => trivial
  | failed =>
    obtain ⟨until', reached, before⟩ := past
    exact ⟨until', reached, le_deadline (deadline_whole reached) before accepted⟩

theorem Asked.mem_granted {worker task : String} {ask : Asked} {lease : LeasedTask} :
    lease ∈ ask.granted worker task ↔
      lease ∈ ask.leased ∧ lease.id = task ∧ ∃ request, ask.request? = some request ∧ request.worker = worker := by
  obtain ⟨kind, operation, result⟩ := ask
  cases operation with
  | lease request =>
    cases result with
    | error reason => simp [granted, leased]
    | ok tasks =>
      by_cases own : request.worker = worker
      · simp [granted, leased, request?, own]
      · simp [granted, leased, request?, own]
  | _ => simp [granted, leased]

theorem Asked.granted_sublist (ask : Asked) (worker task : String) : (ask.granted worker task).Sublist ask.leased := by
  obtain ⟨kind, operation, result⟩ := ask
  cases operation with
  | lease request =>
    cases result with
    | error reason => exact .refl _
    | ok tasks =>
      change (if request.worker = worker then tasks.filter _ else []).Sublist tasks
      split
      · exact List.filter_sublist
      · exact List.nil_sublist _
  | _ => exact .refl _

theorem Asked.filter_granted (ask : Asked) (worker task : String) :
    (ask.granted worker task).filter (fun lease => lease.id = task) = ask.granted worker task :=
  List.filter_eq_self.mpr fun _ granted => decide_eq_true (Asked.mem_granted.mp granted).2.1

/-- A call that spares a task reports no failure of it that leaves retries. -/
theorem Asked.failure?_spares (ask : Asked) {task : String} (spares : ask.operation.Spares task)
    {report : FailureReport} (reported : ask.failure? task = some report) : report.retries = 0 := by
  obtain ⟨kind, operation, result⟩ := ask
  cases operation with
  | failure id worker other =>
    cases result with
    | error reason => cases reported
    | ok value =>
      simp only [failure?, Option.ite_none_right_eq_some, Option.some.injEq] at reported
      exact reported.2 ▸ spares reported.1
  | _ => cases reported

namespace TaskRecord.Rested

variable {record : TaskRecord} {events : List AttemptEvent} {left : Option UInt32} {now expiry : Instant}

/-- Who is given a task is given the retries that were left last, after all waits. -/
theorem leasable (rested : record.Rested events left) {request : LeaseRequest}
    (fits : record.isLeasable request now = true) :
    record.task.retries = left ∧ left ≠ some 0 ∧ ∀ event ∈ events, event.OverAt now := by
  obtain ⟨_, _, retries, free⟩ := isLeasable_iff.mp fits
  obtain ⟨same, waits⟩ := rested.resolve_left retries
  refine ⟨same, fun none' => retries (same.trans none'), waits now fun expiry locked => ?_⟩
  simpa [locked] using free

/-- A lock that is set once all waits are over ends after them. -/
theorem lock (same : record.task.retries = left) (waited : ∀ event ∈ events, event.OverAt now) {span : Span}
    (accepted : deadline now span = .ok expiry) (worker : String) : (record.lock worker expiry).Rested events left :=
  .inr ⟨same, fun _ free event among => ((waited event among).deadline accepted).mono (free expiry rfl)⟩

end TaskRecord.Rested

namespace Engine

variable {e : Engine} {names : Naming} {now : Instant} {ask : Asked} {fresh : FreshNames}

/-- No call leases a task twice. -/
theorem Orderly.leased_nodup (orderly : e.Orderly names)
    (heard : ask.result = (e.step now fresh ask.operation).result) : (ask.leased.map LeasedTask.id).Nodup := by
  obtain ⟨kind, operation, result⟩ := ask
  cases operation with
  | lease request =>
    cases result with
    | error reason => exact .nil
    | ok tasks =>
      obtain ⟨expiry, _, _, rfl⟩ := lease_ok heard.symm
      change (((e.chosenFor now request).map (e.handOver request expiry)).map LeasedTask.id).Nodup
      rw [List.map_map]
      refine orderly.sound.tasks_distinct.sublist (List.Sublist.map _ ?_)
      exact (List.take_sublist _ _).trans List.filter_sublist
  | _ => exact .nil

theorem available_step {task : String} (available : e.available = true) (now : Instant) (fresh : FreshNames)
    {kind : AnswerKind} {operation : Operation kind} (spares : operation.Spares task) :
    (e.step now fresh operation).engine.available = true := by
  have plain (isPlain : operation.isPlain = true) : (e.step now fresh operation).engine.available = true := by
    obtain ⟨_, ordinary, _⟩ := ordinary_step e now fresh isPlain
    exact ordinary.available.trans available
  cases operation with
  | deploy definition => exact (deploy_rest e definition).2.2.2.2.trans available
  | setAvailable available => exact spares
  | failure id worker report => exact (reportFailure_rest id).1.trans available
  | lease request =>
    change (e.lease now request).engine.available = true
    cases result : (e.lease now request).result with
    | error reason =>
      rw [lease_refused result]
      exact available
    | ok tasks =>
      obtain ⟨expiry, available, accepted, _⟩ := lease_ok result
      rw [lease_eq available accepted]
      exact available
  | _ => exact plain rfl

/-- A failure that a task's worker reports of it is taken down, unless the task is out of retries. -/
theorem Keeps.struck {worker task : String} {report : FailureReport} (keeps : e.Keeps names task fun record =>
      record.task.retries = some 0 ∨ record.task.worker = some worker) (available : e.available = true)
    (accepted : ∃ expiry, deadline now report.delay = .ok expiry) (incident : String) :
    ∀ record ∈ (e.reportFailure now incident task worker report).engine.tasks, record.task.id = task →
      record.task.retries = some 0 ∨ ∃ old expiry, deadline now report.delay = .ok expiry ∧
        record = TaskRecord.fail old report expiry := by
  intro record member id
  rcases reportFailure_records record member with ⟨old, refused⟩ | ⟨old, _, expiry, _, same, _, until', _⟩
  · refine .inl ((keeps.records record old id).resolve_right fun owned => ?_)
    have own := keeps.orderly.sound.ownedRecord_eq old owned
    obtain ⟨expiry, accepted⟩ := accepted
    rw [id] at own
    exact refused id (reportFailure_accepted available accepted own _).1
  · exact .inr ⟨old, expiry, until', same⟩

namespace Rations

variable {worker task : String} {underway : List LeasedTask} {events : List AttemptEvent} {left : Option UInt32}

/-- Leases may be let go. -/
theorem of_perm (rations : e.Rations names now worker task underway events left) {kept : List LeasedTask}
    (gone : List LeasedTask) (perm : underway.Perm (kept ++ gone)) :
    e.Rations names now worker task kept events left where
  orderly := rations.orderly
  available := rations.available
  opened := rations.opened.imp_right fun ⟨none', rest⟩ => by
    rw [none'] at perm
    exact ⟨(List.append_eq_nil_iff.mp (List.nil_perm.mp perm)).1, rest⟩
  records := rations.records
  named lease member := rations.named lease (perm.mem_iff.mpr (List.mem_append_left _ member))
  alone := by
    have apart := (perm.pairwise_iff fun {one other} apart => by rwa [and_comm]).mp rations.alone
    exact (List.pairwise_append.mp apart).1
  current lease member := rations.current lease (perm.mem_iff.mpr (List.mem_append_left _ member))

theorem markExecuted (rations : e.Rations names now worker task underway events left) (job : String) :
    (e.markExecuted job).Rations names now worker task underway events left where
  orderly := rations.orderly.of_eq rfl rfl rfl rfl
  available := rations.available
  opened := rations.opened
  records := rations.records
  named := rations.named
  alone := rations.alone
  current lease member lasts := { rations.current lease member lasts with }

/-- While time passes locks end, and waits. -/
theorem pass (rations : e.Rations names now worker task underway events left) {time : Instant} (onward : now ≤ time) :
    e.Rations names time worker task underway events left where
  orderly := rations.orderly
  available := rations.available
  opened := rations.opened
  records := rations.records
  named := rations.named
  alone := rations.alone.imp fun apart both =>
    apart ⟨Instant.lt_of_le_of_lt onward both.1, Instant.lt_of_le_of_lt onward both.2⟩
  current lease member lasts := by
    have current := rations.current lease member (Instant.lt_of_le_of_lt onward lasts)
    exact { current with waited := fun event among => (current.waited event among).mono onward }

/-- A task that is given to someone is in no one's hands. -/
theorem over_of_leasable (rations : e.Rations names now worker task underway events left) {record : TaskRecord}
    (member : record ∈ e.tasks) (id : record.task.id = task) {request : LeaseRequest}
    (fits : record.isLeasable request now = true) {lease : LeasedTask} (among : lease ∈ underway) :
    ¬ now < lease.lockExpiry := by
  intro lasts
  obtain ⟨_, _, retries, free⟩ := TaskRecord.isLeasable_iff.mp fits
  rcases (rations.current lease among lasts).owned record member (id.trans (rations.named lease among).symm) with
    exhausted | ⟨locked, _⟩
  · exact retries exhausted
  · rw [locked, Option.all_some, decide_eq_true_eq] at free
    exact absurd lasts (Instant.not_lt.mpr free)

/-- What a task's record becomes in a call that spares the task. -/
theorem rested_hear (rations : e.Rations names now worker task underway events left) (apart : names.Distinct)
    (heard : ask.result = (e.step now (names.next e) ask.operation).result) (spares : ask.operation.Spares task) :
    ∀ record ∈ (e.step now (names.next e) ask.operation).engine.tasks, record.task.id = task →
      record.Rested events left := by
  intro record member id
  rcases rations.orderly.comes_of heard member with ⟨old, atOld, became⟩ | ⟨untouched, named, _⟩
  · have idOld := became.id.symm.trans id
    have rested := rations.records old atOld idOld
    cases became with
    | kept spared unfailed => exact rested
    | leased asked fits accepted among given once =>
      obtain ⟨same, _, waited⟩ := rested.leasable fits
      exact .lock same waited accepted _
    | failed reported accepted => exact .inl (congrArg some (ask.failure?_spares spares (idOld ▸ reported)))
  · -- a task that is opened has not been tried
    obtain ⟨_, rfl, rfl⟩ := rations.opened.resolve_left fun issued => issued.ne_next apart (named.symm.trans id)
    exact .inr ⟨untouched.untried, by simp⟩

/-- Whoever has a task keeps it as it is, while it is given to no one else. -/
theorem current_hear (rations : e.Rations names now worker task underway events left) (apart : names.Distinct)
    (heard : ask.result = (e.step now (names.next e) ask.operation).result) (spares : ask.operation.Spares task)
    {lease : LeasedTask} (among : lease ∈ underway) (lasts : now < lease.lockExpiry) :
    lease.Current (e.step now (names.next e) ask.operation).engine now worker events left := by
  have current := rations.current lease among lasts
  have idLease := rations.named lease among
  refine { current with owned := fun record member id => ?_ }
  rcases rations.orderly.comes_of heard member with ⟨old, atOld, became⟩ | ⟨_, named, _⟩
  · have idOld := became.id.symm.trans id
    cases became with
    | kept spared unfailed => exact current.owned _ atOld idOld
    | leased asked fits => exact absurd lasts (rations.over_of_leasable atOld (idOld.trans idLease) fits among)
    | failed reported accepted =>
      exact .inl (congrArg some (ask.failure?_spares spares (idOld.trans idLease ▸ reported)))
  · have issued := rations.opened.resolve_right fun none' => List.ne_nil_of_mem among none'.1
    exact absurd (named.symm.trans (id.trans idLease)) (issued.ne_next apart)

/-- Whoever is given a task has it with the retries that were left last. -/
theorem current_granted (rations : e.Rations names now worker task underway events left) (apart : names.Distinct)
    (heard : ask.result = (e.step now (names.next e) ask.operation).result) {lease : LeasedTask}
    (granted : lease ∈ ask.granted worker task) :
    lease.Current (e.step now (names.next e) ask.operation).engine now worker events left := by
  obtain ⟨member, id, request, asked, own⟩ := Asked.mem_granted.mp granted
  obtain ⟨request', asked', record, atRecord, fits, _, given⟩ := leased_from heard member
  have idRecord : record.task.id = task := (congrArg LeasedTask.id given).symm.trans id
  obtain ⟨same, remains, waited⟩ := (rations.records record atRecord idRecord).leasable fits
  obtain ⟨request'', again, _, keeps⟩ := rations.orderly.keeps_leased apart heard member
  rw [asked] at again
  cases again
  refine ⟨(congrArg LeasedTask.retries given).trans same, remains, waited, fun later atLater idLater => .inr ?_⟩
  obtain ⟨locked, owner, _⟩ := keeps.records later atLater idLater
  exact ⟨locked, owner.trans (congrArg some own)⟩

/-- A call that spares the task may give it to the worker, if no one has it. -/
theorem hear (rations : e.Rations names now worker task underway events left) (apart : names.Distinct)
    (heard : ask.result = (e.step now (names.next e) ask.operation).result) (spares : ask.operation.Spares task) :
    (e.step now (names.next e) ask.operation).engine.Rations names now worker task
      (underway ++ ask.granted worker task) events left where
  orderly := rations.orderly.step apart now ask.operation
  available := available_step rations.available now (names.next e) spares
  opened := by
    rcases rations.opened with issued | ⟨rfl, rest⟩
    · exact .inl (issued.step now (names.next e) ask.operation)
    · cases granted : ask.granted worker task with
      | nil => exact .inr ⟨rfl, rest⟩
      | cons lease more =>
        obtain ⟨member, id, _⟩ := Asked.mem_granted.mp (granted ▸ List.mem_cons_self ..)
        obtain ⟨_, _, record, atRecord, _, _, given⟩ := leased_from heard member
        have idRecord : record.task.id = task := (congrArg LeasedTask.id given).symm.trans id
        exact .inl ((idRecord ▸ rations.orderly.issued atRecord).step now (names.next e) ask.operation)
  records := rations.rested_hear apart heard spares
  named := by
    intro lease member
    rcases List.mem_append.mp member with old | new
    · exact rations.named lease old
    · exact (Asked.mem_granted.mp new).2.1
  alone := by
    refine List.pairwise_append.mpr ⟨rations.alone, ?_, fun one among other granted both => ?_⟩
    · have apart := (List.pairwise_map.mp (rations.orderly.leased_nodup heard)).sublist
        (ask.granted_sublist worker task)
      refine apart.imp_of_mem fun one other distinct => ?_
      exact absurd ((Asked.mem_granted.mp one).2.1.trans (Asked.mem_granted.mp other).2.1.symm) distinct
    · obtain ⟨member, id, _⟩ := Asked.mem_granted.mp granted
      obtain ⟨_, _, record, atRecord, fits, _, given⟩ := leased_from heard member
      have idRecord : record.task.id = task := (congrArg LeasedTask.id given).symm.trans id
      exact rations.over_of_leasable atRecord idRecord fits among both.1
  current := by
    intro lease member lasts
    rcases List.mem_append.mp member with old | new
    · exact rations.current_hear apart heard spares old lasts
    · exact rations.current_granted apart heard new

/-- A call of a processor makes no difference to what is left. -/
theorem called (rations : e.Rations names now worker task underway events left) {lease : LeasedTask}
    (among : lease ∈ underway) (time : Instant) (retries : Option UInt32) :
    e.Rations names now worker task underway (events ++ [.called time retries]) left where
  orderly := rations.orderly
  available := rations.available
  opened := .inl (rations.opened.resolve_right fun none' => List.ne_nil_of_mem among none'.1)
  records record member id := (rations.records record member id).imp_right fun ⟨same, waits⟩ =>
    ⟨same, fun now free => List.forall_mem_append.mpr ⟨waits now free, by simp [AttemptEvent.OverAt]⟩⟩
  named := rations.named
  alone := rations.alone
  current lease member lasts := by
    have current := rations.current lease member lasts
    exact { current with waited := List.forall_mem_append.mpr ⟨current.waited, by simp [AttemptEvent.OverAt]⟩ }

/-- While one lease lasts the others do not. -/
theorem only (rations : e.Rations names now worker task underway events left) {lease : LeasedTask}
    {rest : List LeasedTask} (among : underway.Perm (lease :: rest)) (lasts : now < lease.lockExpiry) :
    ∀ other ∈ rest, ¬ now < other.lockExpiry := by
  have apart := (among.pairwise_iff fun {one other} apart => by rwa [and_comm]).mp rations.alone
  exact fun other member still => (List.pairwise_cons.mp apart).1 other member ⟨lasts, still⟩

/-- When an attempt whose lease lasts is over, there is none until the task is given to someone again. -/
theorem ended (rations : e.Rations names now worker task underway events left) {lease : LeasedTask}
    {rest : List LeasedTask} (among : underway.Perm (lease :: rest)) (lasts : now < lease.lockExpiry) {after : Engine}
    {more : List AttemptEvent} {remaining : Option UInt32} (orderly : after.Orderly names)
    (available : after.available = true) (issued : e.Issued names task → after.Issued names task)
    (records : ∀ record ∈ after.tasks, record.task.id = task → record.Rested more remaining) :
    after.Rations names now worker task rest more remaining := by
  have others := rations.only among lasts
  have atLease : lease ∈ underway := among.mem_iff.mpr (List.mem_cons_self ..)
  have opened := rations.opened.resolve_right fun none' => List.ne_nil_of_mem atLease none'.1
  refine ⟨orderly, available, .inl (issued opened), records, fun lease member => ?_, ?_, fun other member still => ?_⟩
  · exact rations.named lease (among.mem_iff.mpr (List.mem_cons_of_mem _ member))
  · exact List.pairwise_of_forall_mem_list fun one atOne _ _ both => others one atOne both.1
  · exact absurd still (others other member)

/-- While a lease lasts its task is the worker's, unless it is out of retries. -/
theorem owned (rations : e.Rations names now worker task underway events left) {lease : LeasedTask}
    (among : lease ∈ underway) (lasts : now < lease.lockExpiry) : e.Keeps names task fun record =>
      record.task.retries = some 0 ∨ record.task.worker = some worker where
  orderly := rations.orderly
  issued := rations.opened.resolve_right fun none' => List.ne_nil_of_mem among none'.1
  records record member id :=
    ((rations.current lease among lasts).owned record member (id.trans (rations.named lease among).symm)).imp_right
      And.right

/-- The failure of an attempt whose lease lasts is taken down: what it leaves is left, once its wait is over
too. -/
theorem fail (rations : e.Rations names now worker task underway events left) (apart : names.Distinct)
    {lease : LeasedTask} {rest : List LeasedTask} (among : underway.Perm (lease :: rest))
    (lasts : now < lease.lockExpiry) {report : FailureReport} {budget : UInt32} {decision : RetryDecision}
    (decided : report.retries = decision.retriesLeft ∧ report.delay = decision.delay)
    (accepted : ∃ expiry, deadline now decision.delay = .ok expiry) :
    (e.step now (names.next e) (.failure task worker report)).engine.Rations names now worker task rest
      (events ++ [.failed now budget decision]) (some decision.retriesLeft) := by
  have atLease : lease ∈ underway := among.mem_iff.mpr (List.mem_cons_self ..)
  refine rations.ended among lasts (rations.orderly.step apart now (.failure task worker report))
    ((reportFailure_rest task).1.trans rations.available)
    (fun issued => issued.step now (names.next e) (.failure task worker report)) fun record member id => ?_
  rcases (rations.owned atLease lasts).struck rations.available (decided.2 ▸ accepted) _ record member id with
    exhausted | ⟨old, expiry, until', rfl⟩
  · exact .inl exhausted
  · refine .inr ⟨congrArg some decided.1, fun time free event member => ?_⟩
    have past : expiry ≤ time := free expiry rfl
    rcases List.mem_append.mp member with earlier | latest
    · exact (((rations.current lease atLease lasts).waited event earlier).deadline until').mono past
    · rw [List.mem_singleton.mp latest]
      exact ⟨expiry, decided.2 ▸ until', past⟩

/-- Calls that finish a task of which an attempt's lease lasts leave it no retries, if they leave it open. -/
theorem finish (rations : e.Rations names now worker task underway events left) (apart : names.Distinct)
    {lease : LeasedTask} {rest : List LeasedTask} (among : underway.Perm (lease :: rest))
    (lasts : now < lease.lockExpiry) {asks : List Asked} {last : Asked} {after : Engine}
    (tame : ∀ ask ∈ asks, ask.operation.Tame) (finishes : last.Finishes worker task)
    (hears : e.Hears now names (asks ++ [last]) after) :
    after.Rations names now worker task rest events (some 0) := by
  have atLease : lease ∈ underway := among.mem_iff.mpr (List.mem_cons_self ..)
  obtain ⟨middle, before, heard, rfl⟩ := hears.of_append
  have owned : middle.Keeps names task (fun record => record.task.retries = some 0 ∨
      record.task.worker = some worker) ∧ middle.available = true := by
    refine before.keeps (P := fun e => e.Keeps names task (fun record => record.task.retries = some 0 ∨
      record.task.worker = some worker) ∧ e.available = true) ⟨rations.owned atLease lasts, rations.available⟩ ?_
    intro e ⟨keeps, available⟩ ask member heard
    have tame := tame ask member
    refine ⟨keeps.hear apart heard fun old record id owned became => ?_,
      available_step available now (names.next e) (tame.spares task)⟩
    cases became with
    | kept spared unfailed => exact owned
    | leased asked fits accepted given =>
      rw [tame.unleased] at given
      cases given
    | failed reported => exact .inl (congrArg some (ask.failure?_spares (tame.spares _) reported))
  obtain ⟨keeps, available⟩ := owned
  have available' := available_step available now (names.next middle) (finishes.tame.spares task)
  refine rations.ended among lasts (keeps.orderly.step apart now last.operation) available'
    (fun _ => keeps.issued.step now (names.next middle) last.operation) fun record member id => .inl ?_
  cases finishes with
  | ended ends =>
    have new := keeps.orderly.newTo apart
    exact absurd id (keeps.orderly.sound.gone available new ends heard.symm record member)
  | failed retries delay =>
    rcases keeps.struck available (delay ▸ deadline_zero now) _ record member id with exhausted | ⟨old, expiry, _, rfl⟩
    · exact exhausted
    · exact congrArg some retries

end Rations

end Engine

end TaskLeasing
