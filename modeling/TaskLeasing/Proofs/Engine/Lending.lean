import TaskLeasing.Proofs.Engine.Progress

namespace TaskLeasing

/-- A lease that was given for the task of a record, under the lock that the task still has. -/
structure LeasedTask.BackedBy (lease : LeasedTask) (worker : String) (record : TaskRecord) : Prop where
  owner : record.task.worker = some worker
  locked : record.task.lockExpiry = some lease.lockExpiry
  given : lease = record.task.leased lease.lockExpiry lease.vars

theorem LeasedTask.BackedBy.id {lease : LeasedTask} {worker : String} {record : TaskRecord}
    (backed : lease.BackedBy worker record) : lease.id = record.task.id := congrArg LeasedTask.id backed.given

/-- An engine that has lent tasks to one worker. Each lease that is held has its task locked, each other task is free,
and no attempt at a task has failed. -/
structure Engine.Lends (e : Engine) (worker : String) (held : List LeasedTask) : Prop where
  distinct : (held.map LeasedTask.id).Nodup
  backed : ∀ lease ∈ held, ∃ record ∈ e.tasks, lease.BackedBy worker record
  untried : ∀ record ∈ e.tasks, record.task.retries = none
  others : ∀ record ∈ e.tasks, record.task.lockExpiry = none ∨ ∃ lease ∈ held, lease.id = record.task.id

/-- Whether a task is one of those that a request is for. -/
def LeaseRequest.fits (request : LeaseRequest) (task : ExternalTask) : Bool :=
  task.topic = request.topic ∧ request.definitionKey.all (· = task.definitionKey)

/-- Requests for one topic and definition are for the same tasks. -/
theorem LeaseRequest.fits_eq {request other : LeaseRequest} (topic : other.topic = request.topic)
    (definitionKey : other.definitionKey = request.definitionKey) : other.fits = request.fits := by
  cases request
  cases other
  cases topic
  cases definitionKey
  rfl

/-- Whether a task is of a group and no lease has locked it. -/
def TaskRecord.isFree (group : ExternalTask → Bool) (record : TaskRecord) : Bool :=
  record.task.lockExpiry.isNone && group record.task

/-- How many tasks of a group are free. -/
def Engine.idle (e : Engine) (group : ExternalTask → Bool) : Nat := e.tasks.countP (TaskRecord.isFree group)

namespace Engine

variable {e after : Engine} {worker : String} {held others : List LeasedTask} {now expiry : Instant}
  {request : LeaseRequest} {record : TaskRecord} {group : ExternalTask → Bool}

/-- Locks leave no more records free than there were. -/
theorem countP_lock_le (records : List TaskRecord) (ids : List String) (worker : String) (expiry : Instant)
    (group : ExternalTask → Bool) :
    (records.map fun record => if record.task.id ∈ ids then record.lock worker expiry else record).countP
      (TaskRecord.isFree group) ≤ records.countP (TaskRecord.isFree group) := by
  rw [List.countP_map]
  refine List.countP_mono_left fun record _ => ?_
  simp only [Function.comp_apply]
  split
  · exact fun locked => by cases locked
  · exact id

namespace Lends

theorem of_perm (lends : e.Lends worker held) (perm : held.Perm others) : e.Lends worker others where
  distinct := (perm.map LeasedTask.id).nodup_iff.mp lends.distinct
  backed lease member := lends.backed lease (perm.mem_iff.mpr member)
  untried := lends.untried
  others record member := (lends.others record member).imp_right fun ⟨lease, among, id⟩ =>
    ⟨lease, perm.mem_iff.mp among, id⟩

theorem of_eq (lends : e.Lends worker held) (tasks : after.tasks = e.tasks) : after.Lends worker held where
  distinct := lends.distinct
  backed := tasks ▸ lends.backed
  untried := tasks ▸ lends.untried
  others := tasks ▸ lends.others

/-- The lease that is held keeps the lock on the task. -/
theorem locked (lends : e.Lends worker held) (sound : e.Sound none) {lease : LeasedTask} (held' : lease ∈ held)
    (member : record ∈ e.tasks) (id : lease.id = record.task.id) : lease.BackedBy worker record := by
  obtain ⟨other, atOther, backed⟩ := lends.backed lease held'
  exact sound.record_unique atOther member (backed.id.symm.trans id) ▸ backed

/-- While no lease has run out, a request finds the free ones of the tasks that it is for. -/
theorem isLeasable_eq (lends : e.Lends worker held) (sound : e.Sound none)
    (lasting : ∀ lease ∈ held, now < lease.lockExpiry) (member : record ∈ e.tasks) :
    record.isLeasable request now = record.isFree request.fits := by
  have left : record.task.retries ≠ some 0 := by simp [lends.untried record member]
  have lock : record.task.lockExpiry.all (fun expiry => decide (expiry ≤ now)) = record.task.lockExpiry.isNone := by
    rcases lends.others record member with free | ⟨lease, among, id⟩
    · rw [free]
      rfl
    · have lasts := lasting lease among
      rw [(lends.locked sound among member id).locked]
      simpa [Instant.not_le] using lasts
  rw [Bool.eq_iff_iff, TaskRecord.isLeasable_iff, lock, TaskRecord.isFree, Bool.and_eq_true, LeaseRequest.fits,
    decide_eq_true_eq]
  exact ⟨fun ⟨topic, key, _, free⟩ => ⟨free, topic, key⟩, fun ⟨free, topic, key⟩ => ⟨topic, key, left, free⟩⟩

/-- While no lease has run out, a request takes tasks that are free. -/
theorem chosen_free (lends : e.Lends worker held) (sound : e.Sound none)
    (lasting : ∀ lease ∈ held, now < lease.lockExpiry) (chosen : record ∈ e.chosenFor now request) :
    record ∈ e.tasks ∧ record.task.lockExpiry = none := by
  obtain ⟨member, fits⟩ := mem_chosenFor chosen
  rw [lends.isLeasable_eq sound lasting member, TaskRecord.isFree, Bool.and_eq_true,
    Option.isNone_iff_eq_none] at fits
  exact ⟨member, fits.1⟩

/-- While no lease has run out, a request leaves the tasks alone that are lent. -/
theorem spared (lends : e.Lends worker held) (sound : e.Sound none)
    (lasting : ∀ lease ∈ held, now < lease.lockExpiry) {lease : LeasedTask} (among : lease ∈ held) :
    lease.id ∉ (e.chosenFor now request).map fun record => record.task.id := by
  intro taken
  obtain ⟨record, chosen, id⟩ := List.mem_map.mp taken
  obtain ⟨member, unlocked⟩ := lends.chosen_free sound lasting chosen
  have locked := (lends.locked sound among member id.symm).locked
  rw [unlocked] at locked
  cases locked

/-- What a request is given is lent from then on. -/
theorem lease (lends : e.Lends request.worker held) (sound : e.Sound none)
    (lasting : ∀ lease ∈ held, now < lease.lockExpiry) {tasks : List LeasedTask}
    (answered : (e.lease now request).result = .ok tasks) :
    (e.lease now request).engine.Lends request.worker (held ++ tasks) := by
  obtain ⟨expiry, available, accepted, rfl⟩ := lease_ok answered
  have ids : ((e.chosenFor now request).map (e.handOver request expiry)).map LeasedTask.id =
      (e.chosenFor now request).map fun record => record.task.id := List.map_map
  rw [lease_eq available accepted]
  refine ⟨?_, ?_, ?_, ?_⟩
  · rw [List.map_append, ids]
    refine List.nodup_append.mpr ⟨lends.distinct, ?_, ?_⟩
    · have sublist : (e.chosenFor now request).Sublist e.tasks := (List.take_sublist _ _).trans List.filter_sublist
      exact sound.tasks_distinct.sublist (sublist.map _)
    · rintro _ old _ new rfl
      obtain ⟨lease, among, rfl⟩ := List.mem_map.mp old
      exact lends.spared sound lasting among new
  · intro lease member
    rcases List.mem_append.mp member with old | new
    · obtain ⟨record, atRecord, backed⟩ := lends.backed lease old
      have spared : record.task.id ∉ (e.chosenFor now request).map fun record => record.task.id :=
        backed.id ▸ lends.spared sound lasting old
      exact ⟨record, List.mem_map.mpr ⟨record, atRecord, if_neg spared⟩, backed⟩
    · obtain ⟨chosen, taken, rfl⟩ := List.mem_map.mp new
      exact ⟨chosen.lock request.worker expiry, List.mem_map.mpr ⟨chosen, (mem_chosenFor taken).1,
        if_pos (List.mem_map_of_mem taken)⟩, rfl, rfl, rfl⟩
  · intro record member
    obtain ⟨old, atOld, rfl⟩ := List.mem_map.mp member
    split <;> exact lends.untried old atOld
  · intro record member
    obtain ⟨old, atOld, rfl⟩ := List.mem_map.mp member
    split
    · next among =>
      obtain ⟨chosen, taken, id⟩ := List.mem_map.mp among
      exact .inr ⟨e.handOver request expiry chosen, List.mem_append_right _ (List.mem_map_of_mem taken), id⟩
    · exact (lends.others old atOld).imp_right fun ⟨lease, among, id⟩ => ⟨lease, List.mem_append_left _ among, id⟩

/-- A request takes a free task of those that it is for, if there is one. -/
theorem idle_lease (lends : e.Lends worker held) (sound : e.Sound none)
    (lasting : ∀ lease ∈ held, now < lease.lockExpiry) (available : e.available = true)
    (accepted : deadline now request.lock = .ok expiry) (some' : 0 < request.maxTasks) :
    (e.lease now request).engine.idle request.fits < e.idle request.fits ∨ e.idle request.fits = 0 := by
  have counted : e.idle request.fits = (e.tasks.filter fun record => record.isLeasable request now).length := by
    rw [← List.countP_eq_length_filter]
    exact List.countP_congr fun record member => by rw [lends.isLeasable_eq sound lasting member]
  cases leasable : e.tasks.filter fun record => record.isLeasable request now with
  | nil => exact .inr (by rw [counted, leasable]; rfl)
  | cons first rest =>
    have taken : first ∈ e.chosenFor now request := by
      obtain ⟨count, same⟩ := Nat.exists_eq_add_of_lt some'
      rw [chosenFor, leasable, same, Nat.zero_add, List.take_succ_cons]
      exact List.mem_cons_self ..
    obtain ⟨member, fits⟩ := mem_chosenFor taken
    rw [lends.isLeasable_eq sound lasting member] at fits
    have apart := List.perm_cons_erase member
    have locked : ¬ (first.lock request.worker expiry).isFree request.fits = true := by
      simp [TaskRecord.isFree, TaskRecord.lock]
    rw [lease_eq available accepted, idle, idle, apart.countP_eq, List.countP_cons_of_pos fits]
    refine .inl (Nat.lt_succ_of_le ?_)
    change (e.tasks.map _).countP _ ≤ _
    rw [(apart.map _).countP_eq, List.map_cons, if_pos (List.mem_map_of_mem taken), List.countP_cons_of_neg locked]
    exact countP_lock_le ..

/-- A task that has ended is lent no longer. -/
theorem removeTask {lease : LeasedTask} (lends : e.Lends worker (lease :: held))
    (tasks : after.tasks = e.tasks.filter fun record => record.task.id ≠ lease.id) : after.Lends worker held := by
  obtain ⟨absent, distinct⟩ := List.nodup_cons.mp lends.distinct
  have kept {record : TaskRecord} : record ∈ after.tasks ↔ record ∈ e.tasks ∧ record.task.id ≠ lease.id := by
    rw [tasks, List.mem_filter, decide_eq_true_eq]
  refine ⟨distinct, fun other member => ?_, fun record member => lends.untried record (kept.mp member).1,
    fun record member => ?_⟩
  · obtain ⟨record, atRecord, backed⟩ := lends.backed other (List.mem_cons_of_mem _ member)
    refine ⟨record, kept.mpr ⟨atRecord, fun same => absent ?_⟩, backed⟩
    rw [← same, ← backed.id]
    exact List.mem_map_of_mem member
  · obtain ⟨old, spared⟩ := kept.mp member
    refine (lends.others record old).imp_right fun ⟨other, among, id⟩ => ?_
    rcases List.mem_cons.mp among with rfl | stays
    · exact absurd id.symm spared
    · exact ⟨other, stays, id⟩

/-- Tasks that are opened are free. -/
theorem opens (lends : e.Lends worker held) {run : ProcessInstance} {fresh : String} {place : Nat}
    {activities : List Activity} (tasks : after.tasks = e.tasks ++ run.opens fresh place activities) :
    after.Lends worker held := by
  have new {record : TaskRecord} (member : record ∈ run.opens fresh place activities) :
      record.task.retries = none ∧ record.task.lockExpiry = none := by
    obtain ⟨target, _, rfl⟩ := List.mem_map.mp member
    exact ⟨rfl, rfl⟩
  refine ⟨lends.distinct, fun lease member => ?_, fun record member => ?_, fun record member => ?_⟩
  · obtain ⟨record, atRecord, backed⟩ := lends.backed lease member
    exact ⟨record, tasks ▸ List.mem_append_left _ atRecord, backed⟩
  · rw [tasks] at member
    exact (List.mem_append.mp member).elim (lends.untried record) fun opened => (new opened).1
  · rw [tasks] at member
    exact (List.mem_append.mp member).elim (lends.others record) fun opened => .inl (new opened).2

end Lends

/-- A lease leaves no more tasks free than there were. -/
theorem idle_lease_le (e : Engine) (now : Instant) (request : LeaseRequest) (group : ExternalTask → Bool) :
    (e.lease now request).engine.idle group ≤ e.idle group := by
  cases result : (e.lease now request).result with
  | error reason => exact Nat.le_of_eq (by rw [lease_refused result])
  | ok tasks =>
    obtain ⟨expiry, available, accepted, _⟩ := lease_ok result
    rw [lease_eq available accepted]
    exact countP_lock_le ..

theorem idle_append {opened : List TaskRecord} (tasks : after.tasks = e.tasks ++ opened)
    (group : ExternalTask → Bool) :
    after.idle group ≤ e.idle group + opened.countP fun record => group record.task := by
  rw [idle, tasks, List.countP_append]
  refine Nat.add_le_add_left (List.countP_mono_left fun record _ => ?_) _
  rw [TaskRecord.isFree, Bool.and_eq_true]
  exact And.right

end Engine

end TaskLeasing
