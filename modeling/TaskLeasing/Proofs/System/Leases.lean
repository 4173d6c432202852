import TaskLeasing.Proofs.System.Tracking

namespace TaskLeasing.System

variable {s after : System} {hand : List Work} {sent : List LeasedTask} {registration : Registration}

/-- A lease is no event for the engine's subscribers, it is only observed. -/
theorem ask_lease (s : System) (request : LeaseRequest) :
    (s.ask (.lease request)).2 = (s.advanced (.lease request)).note
      (.asked .tasks (.lease request) (s.engine.lease s.now request).result) := by
  have silent : (s.engine.lease s.now request).started = [] := by
    cases result : (s.engine.lease s.now request).result with
    | error reason =>
      rw [Engine.lease_refused_at_once result]
      rfl
    | ok tasks =>
      obtain ⟨expiry, available, accepted, _⟩ := Engine.lease_ok result
      rw [Engine.lease_eq available accepted]
      rfl
  exact ask_silent silent

/-- What a registration serves and no lock keeps is leased, unless it is out of retries. -/
theorem leasable (s : System) {record : TaskRecord} (serves : registration.Serves record.task)
    (free : record.task.FreeAt s.now) (left : record.task.retries ≠ some 0) :
    record.isLeasable (s.leaseRequest registration) s.now = true := by
  have unlocked : record.task.lockExpiry.all (fun expiry => decide (expiry ≤ s.now)) = true := by
    cases locked : record.task.lockExpiry with
    | none => rfl
    | some expiry => simpa using free expiry locked
  have fits : (s.leaseRequest registration).definitionKey.all
      (fun key => decide (key = record.task.definitionKey)) = true := by
    unfold leaseRequest
    rw [show registration.key = ⟨record.task.definitionKey, record.task.topic⟩ from serves]
    split <;> simp
  have topic : record.task.topic = (s.leaseRequest registration).topic := by
    unfold leaseRequest
    rw [show registration.key = ⟨record.task.definitionKey, record.task.topic⟩ from serves]
  simp only [TaskRecord.isLeasable, decide_eq_true_eq]
  exact ⟨topic, fits, left, unlocked⟩

/-- A lease of the dispatcher for enough tasks covers all that its registration serves. -/
theorem Tracked.askLease (tracked : s.Tracked (.lease registration :: hand) sent)
    (few : s.engine.tasks.length ≤ unboundedLease)
    (accepted : ∃ expiry, deadline s.now (registration.effectiveLock s.settings.lockTimeout) = .ok expiry) :
    ∃ tasks, s.ask (.lease (s.leaseRequest registration)) =
        (.ok tasks, (s.ask (.lease (s.leaseRequest registration))).2) ∧
      (s.ask (.lease (s.leaseRequest registration))).2.Tracked (.handOut tasks :: hand) sent := by
  obtain ⟨expiry, accepted⟩ := accepted
  have sound := tracked.engine.sound
  obtain ⟨tasks, result, records⟩ :=
    Engine.lease_records (s.leaseRequest registration) sound tracked.engine.available accepted few
  refine ⟨tasks, ask_eq result, ?_⟩
  obtain ⟨_, rewrites⟩ := s.engine.rewrites_lease s.now (s.leaseRequest registration)
  obtain ⟨_, _, _, chosen⟩ := Engine.lease_ok result
  rw [ask_lease, result]
  have succeeds := Engine.Tended.lease_succeeds s.engine s.now (s.leaseRequest registration)
  refine tracked.turn (tracked.engine.lease rfl accepted) ?_ succeeds ?_ ?_ ?_ ?_
  · intro some'
    refine tracked.attached ?_
    rw [← rewrites.instances]
    exact some'
  · exact fun lease member => List.mem_append_right tasks member
  · intro lease member
    rcases List.mem_append.mp member with new | old
    · refine .inr ?_
      have new : lease ∈ tasks := new
      rw [chosen] at new
      obtain ⟨record, among, rfl⟩ := List.mem_map.mp new
      obtain ⟨atRecord, fits⟩ := Engine.mem_chosenFor among
      refine ⟨⟨record.sequence, ?_, tracked.engine.task_names record atRecord⟩, fun other atOther id => ?_⟩
      · have counted := sound.counted record atRecord
        rw [← rewrites.sequence] at counted
        exact counted
      · -- a task that was handed out fitted, so it is not among those that stayed as they were
        rcases records other atOther with ⟨kept, spared⟩ | ⟨old, atOld, rfl, _⟩
        · rw [sound.record_unique kept atRecord id, fits] at spared
          cases spared
        · rw [sound.record_unique atOld atRecord id]
          exact ⟨rfl, rfl, rfl⟩
    · exact .inl old
  · intro work member
    rcases List.mem_cons.mp member with rfl | old
    · exact fun lease among => List.mem_append_left _ among
    · exact (tracked.at_hand work (List.mem_cons_of_mem _ old)).mono (fun _ entry => entry) fun lease leased =>
        List.mem_append_right tasks leased
  · intro record member registered
    rcases records record member with ⟨kept, spared⟩ | ⟨old, atOld, same, lease, among, id, until'⟩
    · by_cases left : record.task.retries = some 0
      · exact .inl left
      · refine (tracked.covered record kept registered).rehand fun work atHand covers => ?_
        rcases List.mem_cons.mp atHand with rfl | still
        · rw [s.leasable covers.1 covers.2 left] at spared
          cases spared
        · exact .at_hand (List.mem_cons_of_mem _ still) covers
    · refine .at_hand (List.mem_cons_self ..) ⟨lease, among, id, ?_⟩
      rw [same, until']
      rfl

/-- A lease of the dispatcher leaves what it leased to be handed out. -/
theorem Tracked.leaseNow (tracked : s.Tracked (.lease registration :: hand) sent)
    (few : s.engine.tasks.length ≤ unboundedLease)
    (accepted : ∃ expiry, deadline s.now (registration.effectiveLock s.settings.lockTimeout) = .ok expiry) :
    (s.leaseNow registration).2.Tracked hand sent := by
  obtain ⟨tasks, asked, leased⟩ := tracked.askLease few accepted
  have logged (works : List Work) (tasks : List LeasedTask) (t : System) (tracked : t.Tracked works sent) :
      (tasks.foldl (fun s task => s.logTask "fetch_and_lock" task "leased") t).Tracked works sent := by
    induction tasks generalizing t with
    | nil => exact tracked
    | cons first rest ih => exact ih _ (tracked.defers (defers_log _ _))
  unfold System.leaseNow
  rw [asked]
  cases tasks with
  | nil =>
    refine leased.drop fun record _ covers => ?_
    obtain ⟨lease, among, _⟩ := covers
    cases among
  | cons first rest =>
    have counted := leased.defers (defers_count _ ((s.ask (.lease
      (s.leaseRequest registration))).2.counters.countLeased (UInt64.ofNat (first :: rest).length)))
    exact (logged _ _ _ counted).afterCommit "process"

theorem Tracked.leaseLogged (tracked : s.Tracked (.lease registration :: hand) sent)
    (few : s.engine.tasks.length ≤ unboundedLease)
    (accepted : ∃ expiry, deadline s.now (registration.effectiveLock s.settings.lockTimeout) = .ok expiry) :
    (s.leaseLogged registration).Tracked hand sent := by
  have leased := tracked.leaseNow few accepted
  unfold System.leaseLogged
  split
  · next number t result =>
    rw [result] at leased
    exact leased
  · next error t result =>
    rw [result] at leased
    exact (leased.defers (defers_count _ _)).defers (defers_log _ _)

theorem Tracked.dispatch (tracked : s.Tracked hand sent) (key : RegistrationKey)
    (few : s.engine.tasks.length ≤ unboundedLease)
    (accepted : ∀ registration, s.registry.lookup key = some registration →
      ∃ expiry, deadline s.now (registration.effectiveLock s.settings.lockTimeout) = .ok expiry) :
    (s.dispatch key).2.Tracked hand sent := by
  unfold System.dispatch
  cases found : s.registry.lookup key with
  | none => exact tracked
  | some registration =>
    have proper : (Work.lease registration).Proper s := List.mem_of_find?_eq_some found
    exact (tracked.put proper).leaseNow few (accepted registration found)

end TaskLeasing.System
