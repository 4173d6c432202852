import TaskLeasing.Proofs.System.Leases
import TaskLeasing.Proofs.System.Upkeep

namespace TaskLeasing.System

variable {s after : System} {hand : List Work} {sent : List LeasedTask} {a : HostAction Work}

theorem Tracked.finishAction (tracked : s.Tracked hand sent) (action : Nat) :
    (s.finishAction action).Tracked hand sent :=
  tracked.add (s.shifts_finishAction tracked.numbered action) (by simp)

theorem Tracked.finishCall (tracked : s.Tracked hand sent) (call : ProcessorCall) :
    (s.finishCall call).Tracked hand sent :=
  tracked.add (s.shifts_finishCall tracked.numbered call) (by simp)

theorem Tracked.runAsync {work : Work} (tracked : s.Tracked (work :: hand) sent) (label : String) :
    (s.runAsync label work).Tracked hand sent := tracked.leave (s.shifts_runAsync label work)

/-- A retry that is put off to the end of its delay is owed from then on. -/
theorem Tracked.runAfter {registration : Registration} {delay : Span}
    (tracked : s.Tracked (.deferRetry registration delay :: hand) sent) (label : String) :
    (s.runAfter label delay (.lease registration)).Tracked hand sent := by
  have shifts := s.shifts_runAfter label delay (.lease registration)
  have registered : registration ∈ s.registry.entries := tracked.at_hand _ (List.mem_cons_self ..)
  have delayed := tracked.add shifts fun duty member => by
    rw [List.mem_singleton.mp member]
    exact registered
  refine delayed.drop fun record _ covers => .inr (.inr (.inr ⟨_, shifts.come _ (List.mem_singleton_self _), ?_⟩))
  rw [shifts.now] at covers
  exact ⟨covers.1, covers.2 s.now s.ordinary (Instant.le_refl _)⟩

/-- Tasks that are handed out are each on their way to a processor. -/
theorem Tracked.handOut {tasks : List LeasedTask} (tracked : s.Tracked (.handOut tasks :: hand) sent)
    (label : String) : (tasks.foldl (fun s task => s.runAsync label (.process task)) s).Tracked hand sent := by
  have leased : ∀ lease ∈ tasks, lease ∈ s.leased := tracked.at_hand _ (List.mem_cons_self ..)
  have each : s.Tracked (tasks.map .process ++ hand) sent := by
    refine tracked.exchange (tasks.map .process) (fun work member => ?_) fun task ⟨lease, among, holds⟩ =>
      ⟨.process lease, List.mem_map_of_mem among, holds⟩
    obtain ⟨lease, among, rfl⟩ := List.mem_map.mp member
    exact leased lease among
  clear tracked leased
  induction tasks generalizing s with
  | nil => exact each
  | cons first rest ih => exact ih (Tracked.runAsync each label)

/-- Work that the host has taken up is done, or has passed to what it leaves to be done. -/
theorem Tracked.runAction (tracked : s.Tracked (a.work :: hand) sent) {action : Nat}
    (runs : s.host.running? action = some a) (few : s.engine.tasks.length ≤ unboundedLease)
    (accepted : ∀ registration, a.work = .lease registration →
      ∃ expiry, deadline s.now (registration.effectiveLock s.settings.lockTimeout) = .ok expiry) :
    (s.runAction action).2.Tracked hand sent := by
  unfold System.runAction
  simp only [runs]
  cases work : a.work with
  | deferLease registration =>
    rw [work] at tracked
    have proper : (Work.lease registration).Proper s :=
      tracked.at_hand (.deferLease registration) (List.mem_cons_self ..)
    have lease := tracked.exchange [.lease registration]
      (fun other member => List.mem_singleton.mp member ▸ proper)
      fun task covers => ⟨_, List.mem_singleton_self _, covers⟩
    exact (Tracked.runAsync lease _).finishAction action
  | lease registration =>
    rw [work] at tracked
    exact (tracked.leaseLogged few (accepted registration work)).finishAction action
  | deferRetry registration delay =>
    rw [work] at tracked
    exact (tracked.runAfter _).finishAction action
  | handOut tasks =>
    rw [work] at tracked
    exact (tracked.handOut _).finishAction action
  | process task =>
    rw [work] at tracked
    have processed := tracked.process (some action)
    simp only
    split
    · next outcome t result =>
      rw [result] at processed
      exact processed.finishAction action
    · next call t result =>
      rw [result] at processed
      exact processed
  | compensate task worker vars error =>
    rw [work] at tracked
    have free : s.Tracked hand sent := tracked.drop fun _ _ covers => covers.elim
    exact (free.compensate task worker vars error).finishAction action

/-- Taking up a queued action loses no task, whether it runs or waits for a permit. -/
theorem Tracked.start (tracked : s.Tracked hand sent) (member : a ∈ s.host.queued)
    (few : s.engine.tasks.length ≤ unboundedLease)
    (accepted : ∀ registration, (s.host.start a.number).running? a.number = some a →
      a.work = .lease registration →
        ∃ expiry, deadline s.now (registration.effectiveLock s.settings.lockTimeout) = .ok expiry) :
    (System.runAction { s with host := s.host.start a.number } a.number).2.Tracked hand sent := by
  rcases s.shifts_start tracked.numbered member with ⟨shifts, runs⟩ | ⟨shifts, waits⟩
  · have owed : (a.work, s.now) ∈ s.duties :=
      mem_duties.mpr (.inl ⟨mem_ready.mpr (.inr (.inl (List.mem_map_of_mem member))), rfl⟩)
    exact (tracked.take owed shifts).runAction runs few fun registration => accepted registration runs
  · have waiting := tracked.add shifts (by simp)
    unfold System.runAction
    simp only [waits]
    exact waiting

theorem Tracked.resume (tracked : s.Tracked hand sent) (member : a ∈ s.host.granted)
    (few : s.engine.tasks.length ≤ unboundedLease)
    (accepted : ∀ registration, (s.host.resume a.number).running? a.number = some a →
      a.work = .lease registration →
        ∃ expiry, deadline s.now (registration.effectiveLock s.settings.lockTimeout) = .ok expiry) :
    (System.runAction { s with host := s.host.resume a.number } a.number).2.Tracked hand sent := by
  obtain ⟨shifts, runs⟩ := s.shifts_resume tracked.numbered member
  have owed : (a.work, s.now) ∈ s.duties :=
    mem_duties.mpr (.inl ⟨mem_ready.mpr (.inr (.inr (.inr (List.mem_map_of_mem member)))), rfl⟩)
  exact (tracked.take owed shifts).runAction runs few fun registration => accepted registration runs

/-- What was put off covers no less once it is due. -/
theorem Tracked.wake (tracked : s.Tracked hand sent) (action : Nat) :
    System.Tracked { s with host := s.host.wake s.now action } hand sent := by
  rcases s.shifts_wake tracked.numbered action with same | ⟨d, member, due, shifts⟩
  · rw [same]
    exact tracked
  · have owed : (d.work, d.due.getD .last) ∈ s.duties := mem_duties.mpr (.inr (.inl ⟨d, member, rfl⟩))
    refine tracked.shift [] shifts (fun duty new => ?_) (by simp) fun duty old task covers => .inr ?_
    · rw [List.mem_singleton.mp new]
      exact tracked.duties (d.work, d.due.getD .last) owed
    · rw [List.mem_singleton.mp old] at covers
      exact ⟨_, List.mem_singleton_self _, covers.mono due⟩

end TaskLeasing.System
