import TaskLeasing.Proofs.Engine.Deadlines
import TaskLeasing.Proofs.Engine.Tending
import TaskLeasing.Proofs.System.Duties

namespace TaskLeasing

/-- A lease holds a task if the task's lock is the one it was leased with. -/
def LeasedTask.Holds (lease : LeasedTask) (task : ExternalTask) : Prop :=
  lease.id = task.id ∧ task.lockExpiry = some lease.lockExpiry

def Registration.Serves (registration : Registration) (task : ExternalTask) : Prop :=
  registration.key = ⟨task.definitionKey, task.topic⟩

/-- A task that no lock keeps from being leased at a time. -/
def ExternalTask.FreeAt (task : ExternalTask) (time : Instant) : Prop :=
  ∀ expiry, task.lockExpiry = some expiry → expiry ≤ time

/-- Whether work that is done from a time on sees to a task: it leases for the task once the task is free,
or it is an attempt under the lock that the task has. -/
def Work.Covers (time : Instant) (task : ExternalTask) : Work → Prop
  | .deferLease registration => registration.Serves task ∧ task.FreeAt time
  | .lease registration => registration.Serves task ∧ task.FreeAt time
  | .deferRetry registration delay => registration.Serves task ∧
      ∀ begun : Instant, begun.leap = false → time ≤ begun → task.FreeAt ((begun.plus? delay).getD .last)
  | .handOut tasks => ∃ leased ∈ tasks, leased.Holds task
  | .process leased => leased.Holds task
  | .compensate .. => False

/-- Work that a dispatcher has come to: leases for its own registrations, attempts at what it leased. -/
def Work.Proper (s : System) : Work → Prop
  | .deferLease registration => registration ∈ s.registry.entries
  | .lease registration => registration ∈ s.registry.entries
  | .deferRetry registration _ => registration ∈ s.registry.entries
  | .handOut tasks => ∀ leased ∈ tasks, leased ∈ s.leased
  | .process leased => leased ∈ s.leased
  | .compensate .. => True

/-- A task that the dispatcher has leased and that, while it is open, stays leased in the worker's name. -/
structure System.Genuine (s : System) (lease : LeasedTask) : Prop where
  named : ∃ place ≤ s.engine.sequence, lease.id = s.names.task place
  own : ∀ record ∈ s.engine.tasks, record.task.id = lease.id →
    record.task.definitionKey = lease.definitionKey ∧ record.task.topic = lease.topic ∧
      record.task.worker = some s.settings.workerId

/-- A call whose attempt, if it is one, is at a task that the dispatcher leased for the call's
registration. -/
structure System.ProperCall (s : System) (call : ProcessorCall) : Prop where
  counted : call.number ≤ s.callCount
  attempt : ∀ lease, call.subject.attempt? = some lease → lease ∈ s.leased ∧
    call.worker = s.settings.workerId ∧ call.registration ∈ s.registry.entries ∧
      call.registration.key = ⟨lease.definitionKey, lease.topic⟩

/-- A task that is seen to: it waits for someone to look into its incident, or for the response to a
request that was sent, or some work at hand or to be done covers it. -/
def System.Covered (s : System) (hand : List Work) (sent : List LeasedTask) (task : ExternalTask) : Prop :=
  task.retries = some 0 ∨ (∃ lease ∈ sent, lease.Holds task) ∨
    (∃ work ∈ hand, work.Covers s.now task) ∨ ∃ duty ∈ s.duties, duty.1.Covers duty.2 task

/-- A system in which no task is lost, given works that are at hand and requests that were sent. -/
structure System.Tracked (s : System) (hand : List Work) (sent : List LeasedTask) : Prop where
  engine : s.engine.Tended s.names s.settings.workerId
  apart : s.names.Distinct
  alive : s.Kept
  attached : s.engine.instances ≠ [] → 0 < s.listening
  genuine : ∀ lease ∈ s.leased, s.Genuine lease
  numbered : s.host.Numbered
  calls_distinct : (s.calls.map ProcessorCall.number).Nodup
  calls : ∀ call ∈ s.calls, s.ProperCall call
  duties : ∀ duty ∈ s.duties, duty.1.Proper s
  at_hand : ∀ work ∈ hand, work.Proper s
  were_sent : ∀ lease ∈ sent, lease ∈ s.leased
  covered : ∀ record ∈ s.engine.tasks,
    (s.registry.lookup ⟨record.task.definitionKey, record.task.topic⟩).isSome → s.Covered hand sent record.task

theorem ExternalTask.FreeAt.mono {task : ExternalTask} {early late : Instant} (free : task.FreeAt early)
    (later : early ≤ late) : task.FreeAt late :=
  fun expiry locked => Instant.le_trans (free expiry locked) later

/-- What covers a task from a time on does so from any later time on. -/
theorem Work.Covers.mono {work : Work} {task : ExternalTask} {early late : Instant}
    (covers : work.Covers early task) (later : early ≤ late) : work.Covers late task := by
  cases work with
  | deferLease registration => exact ⟨covers.1, covers.2.mono later⟩
  | lease registration => exact ⟨covers.1, covers.2.mono later⟩
  | deferRetry registration delay =>
    exact ⟨covers.1, fun begun ordinary past => covers.2 begun ordinary (Instant.le_trans later past)⟩
  | handOut tasks => exact covers
  | process leased => exact covers
  | compensate => exact covers

theorem Work.Proper.mono {s after : System} {work : Work} (proper : work.Proper s)
    (registry : ∀ entry ∈ s.registry.entries, entry ∈ after.registry.entries)
    (leased : ∀ lease ∈ s.leased, lease ∈ after.leased) : work.Proper after := by
  cases work with
  | deferLease registration => exact registry _ proper
  | lease registration => exact registry _ proper
  | deferRetry registration delay => exact registry _ proper
  | handOut tasks => exact fun task member => leased task (proper task member)
  | process task => exact leased task proper
  | compensate => trivial

namespace System

variable {s after : System} {hand : List Work} {sent : List LeasedTask}

theorem Stays.proper (stays : s.Stays after) {work : Work} (proper : work.Proper s) : work.Proper after :=
  proper.mono (stays.registry ▸ fun _ member => member) (stays.leased ▸ fun _ member => member)

theorem Genuine.of_eq {lease : LeasedTask} (genuine : s.Genuine lease) (names : after.names = s.names)
    (engine : after.engine = s.engine) (worker : after.settings.workerId = s.settings.workerId) :
    after.Genuine lease where
  named := by
    rw [names, engine]
    exact genuine.named
  own := by
    rw [engine, worker]
    exact genuine.own

theorem ProperCall.mono {call : ProcessorCall} (proper : s.ProperCall call) (count : s.callCount ≤ after.callCount)
    (leased : ∀ lease ∈ s.leased, lease ∈ after.leased)
    (worker : after.settings.workerId = s.settings.workerId)
    (registry : ∀ entry ∈ s.registry.entries, entry ∈ after.registry.entries) : after.ProperCall call where
  counted := Nat.le_trans proper.counted count
  attempt := by
    intro lease attempts
    obtain ⟨own, named, registered, key⟩ := proper.attempt lease attempts
    exact ⟨leased lease own, named.trans worker.symm, registry _ registered, key⟩

theorem Covered.at_hand {task : ExternalTask} {work : Work} (member : work ∈ hand)
    (covers : work.Covers s.now task) : s.Covered hand sent task := .inr (.inr (.inl ⟨work, member, covers⟩))

theorem Covered.owed {task : ExternalTask} {duty : Duty} (member : duty ∈ s.duties)
    (covers : duty.1.Covers duty.2 task) : s.Covered hand sent task := .inr (.inr (.inr ⟨duty, member, covers⟩))

/-- A task stays covered if all that covered it is replaced. -/
theorem Covered.replace {task : ExternalTask} {others : List Work} (covered : s.Covered hand sent task)
    (works : ∀ work ∈ hand, work.Covers s.now task → after.Covered others sent task)
    (duties : ∀ duty ∈ s.duties, duty.1.Covers duty.2 task → after.Covered others sent task) :
    after.Covered others sent task := by
  rcases covered with stuck | waits | ⟨work, atHand, covers⟩ | ⟨duty, owed, covers⟩
  · exact .inl stuck
  · exact .inr (.inl waits)
  · exact works work atHand covers
  · exact duties duty owed covers

/-- Duties may be exchanged for others, or for works at hand, that cover what they covered. -/
theorem Tracked.shift {gone come : List Duty} (more : List Work) (tracked : s.Tracked hand sent)
    (shifts : s.Shifts after gone come) (proper : ∀ duty ∈ come, duty.1.Proper s)
    (taken : ∀ work ∈ more, work.Proper s)
    (replaced : ∀ duty ∈ gone, ∀ task, duty.1.Covers duty.2 task →
      (∃ work ∈ more, work.Covers s.now task) ∨ ∃ other ∈ come, other.1.Covers other.2 task) :
    after.Tracked (more ++ hand) sent where
  engine := by
    rw [shifts.engine, shifts.names, shifts.settings]
    exact tracked.engine
  apart := shifts.names ▸ tracked.apart
  alive := shifts.kept_alive tracked.alive
  attached := by
    rw [shifts.engine, shifts.listening]
    exact tracked.attached
  genuine := by
    intro lease member
    rw [shifts.leased] at member
    exact (tracked.genuine lease member).of_eq shifts.names shifts.engine (congrArg _ shifts.settings)
  numbered := shifts.numbered tracked.numbered
  calls_distinct := shifts.calls ▸ tracked.calls_distinct
  calls := by
    intro call member
    rw [shifts.calls] at member
    exact (tracked.calls call member).mono (Nat.le_of_eq shifts.callCount.symm)
      (shifts.leased ▸ fun _ own => own) (congrArg _ shifts.settings) (shifts.registry ▸ fun _ entry => entry)
  duties := by
    intro duty member
    refine shifts.toStays.proper ?_
    rcases shifts.new duty member with old | new
    · exact tracked.duties duty old
    · exact proper duty new
  at_hand := by
    intro work member
    refine shifts.toStays.proper ?_
    rcases List.mem_append.mp member with new | old
    · exact taken work new
    · exact tracked.at_hand work old
  were_sent := shifts.leased ▸ tracked.were_sent
  covered := by
    intro record member registered
    rw [shifts.engine] at member
    rw [shifts.registry] at registered
    refine (tracked.covered record member registered).replace (fun work atHand covers => ?_)
      fun duty owed covers => ?_
    · rw [← shifts.now] at covers
      exact .at_hand (List.mem_append_right _ atHand) covers
    · rcases shifts.kept duty owed with goes | stays
      · rcases replaced duty goes record.task covers with ⟨work, atMore, covers'⟩ | ⟨other, comes, covers'⟩
        · rw [← shifts.now] at covers'
          exact .at_hand (List.mem_append_left _ atMore) covers'
        · exact .owed (shifts.come other comes) covers'
      · exact .owed stays covers

/-- More duties do no harm. -/
theorem Tracked.add {come : List Duty} (tracked : s.Tracked hand sent) (shifts : s.Shifts after [] come)
    (proper : ∀ duty ∈ come, duty.1.Proper s) : after.Tracked hand sent :=
  tracked.shift [] shifts proper (by simp) (by simp)

/-- Work that is taken up is at hand. -/
theorem Tracked.take {work : Work} (tracked : s.Tracked hand sent) (owed : (work, s.now) ∈ s.duties)
    (shifts : s.Shifts after [(work, s.now)] []) : after.Tracked (work :: hand) sent := by
  refine tracked.shift [work] shifts (by simp) ?_ ?_
  · intro other member
    rw [List.mem_singleton.mp member]
    exact tracked.duties _ owed
  · intro duty member task covers
    rw [List.mem_singleton.mp member] at covers
    exact .inl ⟨work, List.mem_singleton_self _, covers⟩

/-- Works at hand may be exchanged for others if all that they covered is covered otherwise. -/
theorem Tracked.rehand {others : List Work} (tracked : s.Tracked hand sent)
    (proper : ∀ work ∈ others, work.Proper s)
    (replaced : ∀ record ∈ s.engine.tasks, ∀ work ∈ hand, work.Covers s.now record.task →
      s.Covered others sent record.task) : s.Tracked others sent :=
  { tracked with
    at_hand := proper
    covered := by
      intro record member registered
      exact (tracked.covered record member registered).replace (replaced record member) fun _ => .owed }

/-- Work at hand may be let go of once all that it covered is covered otherwise. -/
theorem Tracked.drop {work : Work} (tracked : s.Tracked (work :: hand) sent)
    (replaced : ∀ record ∈ s.engine.tasks, work.Covers s.now record.task → s.Covered hand sent record.task) :
    s.Tracked hand sent := by
  refine tracked.rehand (fun other member => tracked.at_hand other (List.mem_cons_of_mem _ member)) ?_
  intro record member other atHand covers
  rcases List.mem_cons.mp atHand with rfl | still
  · exact replaced record member covers
  · exact .at_hand still covers

/-- Work at hand may be exchanged for other works that cover all that it covered. -/
theorem Tracked.exchange {work : Work} (others : List Work) (tracked : s.Tracked (work :: hand) sent)
    (proper : ∀ other ∈ others, other.Proper s)
    (replaced : ∀ task, work.Covers s.now task → ∃ other ∈ others, other.Covers s.now task) :
    s.Tracked (others ++ hand) sent := by
  refine tracked.rehand (fun other member => ?_) fun record _ other atHand covers => ?_
  · rcases List.mem_append.mp member with new | old
    · exact proper other new
    · exact tracked.at_hand other (List.mem_cons_of_mem _ old)
  · rcases List.mem_cons.mp atHand with rfl | still
    · obtain ⟨next, among, covers'⟩ := replaced record.task covers
      exact .at_hand (List.mem_append_left _ among) covers'
    · exact .at_hand (List.mem_append_right _ still) covers

theorem Tracked.put {work : Work} (tracked : s.Tracked hand sent) (proper : work.Proper s) :
    s.Tracked (work :: hand) sent := by
  refine tracked.rehand ?_ fun _ _ other atHand covers => .at_hand (List.mem_cons_of_mem _ atHand) covers
  intro other member
  rcases List.mem_cons.mp member with rfl | old
  · exact proper
  · exact tracked.at_hand other old

/-- Works that are to be done need not be at hand. -/
theorem Tracked.owed (works : List Work) (tracked : s.Tracked (works ++ hand) sent)
    (owed : ∀ work ∈ works, (work, s.now) ∈ s.duties) : s.Tracked hand sent := by
  refine tracked.rehand (fun work member => tracked.at_hand work (List.mem_append_right _ member)) ?_
  intro record _ work atHand covers
  rcases List.mem_append.mp atHand with due | still
  · exact .owed (owed work due) covers
  · exact .at_hand still covers

/-- Work that comes to be done is no longer at hand. -/
theorem Tracked.leave {work : Work} (tracked : s.Tracked (work :: hand) sent)
    (shifts : s.Shifts after [] [(work, s.now)]) : after.Tracked hand sent := by
  have proper : work.Proper s := tracked.at_hand work (List.mem_cons_self ..)
  have added := tracked.add shifts fun duty member => by rw [List.mem_singleton.mp member]; exact proper
  refine Tracked.owed [work] added fun other member => ?_
  rw [List.mem_singleton.mp member, shifts.now]
  exact shifts.come _ (List.mem_singleton_self _)

/-- As time passes what is free stays free, and what is to be done can be done. -/
theorem Tracked.passTo {time : Instant} (tracked : s.Tracked hand sent) (later : s.now ≤ time) :
    (s.passTo time).Tracked hand sent := by
  have later : s.now ≤ (s.passTo time).now := Instant.le_shown s.ordinary later
  refine { tracked with genuine := ?_, calls := ?_, duties := ?_, at_hand := ?_, covered := ?_ }
  · exact fun lease member => (tracked.genuine lease member).of_eq rfl rfl rfl
  · exact fun call member => (tracked.calls call member).mono (Nat.le_refl _) (fun _ leased => leased) rfl
      fun _ entry => entry
  · intro duty member
    rcases mem_duties.mp member with ⟨among, _⟩ | ⟨d, atD, rfl⟩ | ⟨call, atCall, lease, attempt, rfl⟩
    · exact tracked.duties (duty.1, s.now) (mem_duties.mpr (.inl ⟨among, rfl⟩))
    · exact tracked.duties _ (mem_duties.mpr (.inr (.inl ⟨d, atD, rfl⟩)))
    · exact tracked.duties (.process lease, s.now)
        (mem_duties.mpr (.inr (.inr ⟨call, atCall, lease, attempt, rfl⟩)))
  · exact fun work member => (tracked.at_hand work member).mono (fun _ entry => entry) fun _ leased => leased
  · intro record member registered
    refine (tracked.covered record member registered).replace
      (fun work atHand covers => .at_hand atHand (covers.mono later)) fun duty owed covers => ?_
    rcases mem_duties.mp owed with ⟨among, now⟩ | ⟨d, atD, rfl⟩ | ⟨call, atCall, lease, attempt, rfl⟩
    · rw [now] at covers
      have due : (duty.1, (s.passTo time).now) ∈ (s.passTo time).duties := mem_duties.mpr (.inl ⟨among, rfl⟩)
      exact .owed due (covers.mono later)
    · exact .owed (mem_duties.mpr (.inr (.inl ⟨d, atD, rfl⟩))) covers
    · exact .owed (mem_duties.mpr (.inr (.inr ⟨call, atCall, lease, attempt, rfl⟩))) covers

/-- The dispatcher may be attached once more, come to serve more topics that no task is open for, and change its
settings but for its name. -/
theorem Tracked.amend {listening : Nat} {registry : Registry} {settings : Settings}
    (tracked : s.Tracked hand sent) (attached : s.engine.instances ≠ [] → 0 < listening)
    (entries : ∀ entry ∈ s.registry.entries, entry ∈ registry.entries)
    (worker : settings.workerId = s.settings.workerId)
    (served : ∀ record ∈ s.engine.tasks,
      (registry.lookup ⟨record.task.definitionKey, record.task.topic⟩).isSome →
        (s.registry.lookup ⟨record.task.definitionKey, record.task.topic⟩).isSome) :
    System.Tracked { s with listening := listening, registry := registry, settings := settings } hand sent where
  engine := by
    rw [worker]
    exact tracked.engine
  apart := tracked.apart
  alive := tracked.alive
  attached := attached
  genuine := fun lease member => (tracked.genuine lease member).of_eq rfl rfl worker
  numbered := tracked.numbered
  calls_distinct := tracked.calls_distinct
  calls := fun call member =>
    (tracked.calls call member).mono (Nat.le_refl _) (fun _ leased => leased) worker entries
  duties := fun duty member => (tracked.duties duty member).mono entries fun _ leased => leased
  at_hand := fun work member => (tracked.at_hand work member).mono entries fun _ leased => leased
  were_sent := tracked.were_sent
  covered := fun record member registered => tracked.covered record member (served record member registered)

/-- A request that was sent is waited for. -/
theorem Tracked.send {lease : LeasedTask} (tracked : s.Tracked (.process lease :: hand) sent) :
    s.Tracked hand (sent ++ [lease]) := by
  have leased : lease ∈ s.leased := tracked.at_hand _ (List.mem_cons_self ..)
  have longer : s.Tracked (.process lease :: hand) (sent ++ [lease]) :=
    { tracked with
      were_sent := by
        intro other member
        rcases List.mem_append.mp member with old | new
        · exact tracked.were_sent other old
        · exact List.mem_singleton.mp new ▸ leased
      covered := by
        intro record member registered
        refine (tracked.covered record member registered).imp_right (Or.imp_left ?_)
        rintro ⟨other, among, holds⟩
        exact ⟨other, List.mem_append_left _ among, holds⟩ }
  refine longer.drop fun record _ holds => .inr (.inl ?_)
  exact ⟨lease, List.mem_append_right _ (List.mem_singleton_self lease), holds⟩

end System

end TaskLeasing
