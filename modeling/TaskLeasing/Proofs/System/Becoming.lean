import TaskLeasing.Proofs.Engine.Deadlines
import TaskLeasing.Proofs.Engine.Orderly
import TaskLeasing.Proofs.System.Conduct

namespace TaskLeasing

/-- The request of a call that asks for leases. -/
def Asked.request? : Asked → Option LeaseRequest
  | ⟨.tasks, .lease request, _⟩ => some request
  | _ => none

/-- The report of a failure of a task that was accepted in a call. -/
def Asked.failure? (task : String) : Asked → Option FailureReport
  | ⟨.done, .failure id _ report, .ok _⟩ => if id = task then some report else none
  | _ => none

/-- What a call makes of the record of a task that stays open: it is left alone, or handed out under a new
lock, or takes down a failure. -/
inductive TaskRecord.Becomes (now : Instant) (ask : Asked) (record : TaskRecord) : TaskRecord → Prop
  | kept (spared : ∀ lease ∈ ask.leased, lease.id ≠ record.task.id) (unfailed : ask.failure? record.task.id = none) :
      Becomes now ask record record
  | leased {request : LeaseRequest} {expiry : Instant} {lease : LeasedTask} (asked : ask.request? = some request)
      (fits : record.isLeasable request now = true) (accepted : deadline now request.lock = .ok expiry)
      (member : lease ∈ ask.leased) (given : lease = record.task.leased expiry lease.vars)
      (once : ∀ other ∈ ask.leased, other.id = record.task.id → other = lease) :
      Becomes now ask record (record.lock request.worker expiry)
  | failed {report : FailureReport} {expiry : Instant} (reported : ask.failure? record.task.id = some report)
      (accepted : deadline now report.delay = .ok expiry) : Becomes now ask record (record.fail report expiry)

/-- A record of a task that no one has been given yet. -/
structure TaskRecord.Untouched (record : TaskRecord) : Prop where
  unowned : record.task.worker = none
  unlocked : record.task.lockExpiry = none
  untried : record.task.retries = none

theorem TaskRecord.Becomes.id {now : Instant} {ask : Asked} {old record : TaskRecord}
    (becomes : old.Becomes now ask record) : record.task.id = old.task.id := by
  cases becomes <;> rfl

/-- A call that leases takes down no failure. -/
theorem Asked.failure?_leased {ask : Asked} {lease : LeasedTask} (member : lease ∈ ask.leased) (task : String) :
    ask.failure? task = none := by
  obtain ⟨kind, operation, result⟩ := ask
  cases operation with
  | lease request => rfl
  | _ => cases member

namespace Engine

variable {e : Engine} {names : Naming} {ask : Asked} {now : Instant} {fresh : FreshNames}

/-- What a call handed out was open before, and free for its request. -/
theorem leased_from (heard : ask.result = (e.step now fresh ask.operation).result) {lease : LeasedTask}
    (member : lease ∈ ask.leased) : ∃ request, ask.request? = some request ∧ ∃ record ∈ e.tasks,
      record.isLeasable request now = true ∧ deadline now request.lock = .ok lease.lockExpiry ∧
        lease = record.task.leased lease.lockExpiry lease.vars := by
  obtain ⟨kind, operation, result⟩ := ask
  cases operation with
  | lease request =>
    cases result with
    | error reason => cases member
    | ok tasks =>
      obtain ⟨expiry, _, accepted, rfl⟩ := lease_ok heard.symm
      obtain ⟨record, chosen, rfl⟩ := List.mem_map.mp member
      obtain ⟨atRecord, fits⟩ := mem_chosenFor chosen
      exact ⟨request, rfl, record, atRecord, fits, accepted, rfl⟩
  | _ => cases member

namespace Orderly

variable (orderly : e.Orderly names)
include orderly

theorem becomes_lease {request : LeaseRequest} {result : Except EngineError (List LeasedTask)}
    (heard : result = (e.lease now request).result) :
    ∀ record ∈ (e.lease now request).engine.tasks,
      ∃ old ∈ e.tasks, old.Becomes now ⟨.tasks, .lease request, result⟩ record := by
  subst heard
  cases result : (e.lease now request).result with
  | error reason =>
    rw [lease_refused result]
    exact fun record member => ⟨record, member, .kept (fun _ among => nomatch among) rfl⟩
  | ok tasks =>
    obtain ⟨expiry, available, accepted, rfl⟩ := lease_ok result
    rw [lease_eq available accepted]
    intro record member
    obtain ⟨old, atOld, rfl⟩ := List.mem_map.mp member
    refine ⟨old, atOld, ?_⟩
    split
    · next among =>
      have chosen := (orderly.sound.chosen_iff atOld).mp among
      obtain ⟨_, fits⟩ := mem_chosenFor chosen
      refine .leased rfl fits accepted (List.mem_map_of_mem chosen) rfl fun lease handed sameId => ?_
      obtain ⟨third, chosen', rfl⟩ := List.mem_map.mp handed
      rw [orderly.sound.record_unique (mem_chosenFor chosen').1 atOld sameId]
    · next spared =>
      refine .kept (fun lease handed sameId => spared ?_) rfl
      obtain ⟨other, chosen, rfl⟩ := List.mem_map.mp handed
      exact List.mem_map.mpr ⟨other, chosen, sameId⟩

omit orderly in
theorem becomes_failure {task worker : String} {report : FailureReport} {result : Except EngineError Unit}
    (heard : result = (e.reportFailure now fresh.incident task worker report).result) :
    ∀ record ∈ (e.reportFailure now fresh.incident task worker report).engine.tasks,
      ∃ old ∈ e.tasks, old.Becomes now ⟨.done, .failure task worker report, result⟩ record := by
  subst heard
  intro record member
  cases result : (e.reportFailure now fresh.incident task worker report).result with
  | error reason =>
    rw [reportFailure_refused result] at member
    exact ⟨record, member, .kept (fun _ among => nomatch among) rfl⟩
  | ok _ =>
    obtain ⟨expiry, owned, available, accepted, own⟩ := reportFailure_ok result
    have tasks : (e.reportFailure now fresh.incident task worker report).engine.tasks =
        (e.modifyRecord task fun r => r.fail report expiry).tasks := by
      rw [reportFailure_eq available accepted own]
      split <;> rfl
    rw [tasks] at member
    obtain ⟨old, atOld, rfl⟩ := List.mem_map.mp member
    refine ⟨old, atOld, ?_⟩
    split
    · next same => exact .failed (if_pos same.symm) accepted
    · next other => exact .kept (fun _ among => nomatch among) (if_neg (Ne.symm other))

/-- Each record that a call leaves has become of one that there was, or is that of a task it has opened. -/
theorem comes_of (heard : ask.result = (e.step now (names.next e) ask.operation).result)
    {record : TaskRecord} (member : record ∈ (e.step now (names.next e) ask.operation).engine.tasks) :
    (∃ old ∈ e.tasks, old.Becomes now ask record) ∨
      record.Untouched ∧ record.task.id = (names.next e).task ∧ ask.leased = [] := by
  obtain ⟨kind, operation, result⟩ := ask
  have plain (isPlain : operation.isPlain = true) (unleased : Asked.leased ⟨kind, operation, result⟩ = [])
      (unfailed : Asked.failure? record.task.id ⟨kind, operation, result⟩ = none) :
      (∃ old ∈ e.tasks, old.Becomes now ⟨kind, operation, result⟩ record) ∨ record.Untouched ∧
        record.task.id = (names.next e).task ∧ Asked.leased ⟨kind, operation, result⟩ = [] := by
    obtain ⟨_, ordinary, _⟩ := ordinary_step e now (names.next e) isPlain
    rcases ordinary.records record member with ⟨old, _⟩ | ⟨opened, _⟩
    · exact .inl ⟨record, old, .kept (by simp [unleased]) unfailed⟩
    · exact .inr ⟨⟨opened.unowned, opened.unlocked, opened.untried⟩, opened.id, unleased⟩
  cases operation with
  | lease request => exact .inl (orderly.becomes_lease heard record member)
  | failure task worker report => exact .inl (becomes_failure heard record member)
  | deploy definition =>
    have tasks : (e.deploy definition).tasks = e.tasks := (deploy_rest e definition).2.1
    exact .inl ⟨record, tasks ▸ member, .kept (fun _ among => nomatch among) rfl⟩
  | setAvailable available => exact .inl ⟨record, member, .kept (fun _ among => nomatch among) rfl⟩
  | _ => exact plain rfl rfl rfl

/-- Of a task that was opened before, no call opens another. -/
theorem becomes (apart : names.Distinct) (heard : ask.result = (e.step now (names.next e) ask.operation).result)
    {record : TaskRecord} (member : record ∈ (e.step now (names.next e) ask.operation).engine.tasks)
    (issued : e.Issued names record.task.id) : ∃ old ∈ e.tasks, old.Becomes now ask record :=
  (orderly.comes_of heard member).resolve_right fun opened => issued.ne_next apart opened.2.1.symm

end Orderly

end Engine

end TaskLeasing
