import TaskLeasing.Proofs.Engine.Thriving
import TaskLeasing.Proofs.System.Hosting
import TaskLeasing.Proofs.System.Inquiry

namespace TaskLeasing

/-- What suits a dispatcher of synchronous processors that always succeed, and is to be left alone otherwise. Others
only deploy definitions under new keys, and start instances while the dispatcher is attached and all external
activities of the definition are registered. Processors return the results, the dispatcher keeps its name, and
someone holds it. -/
def System.Suits (s : System) (results : RegistrationKey → TaskContext → Variables) : Move → Prop
  | .operate _ (.deploy definition) => (definition.activities.map Activity.id).Nodup ∧
      s.engine.definition? definition.key = none
  | .operate _ (.start key _ _) => 0 < s.listening ∧ ∀ definition ∈ s.engine.definition? key,
      ∀ activity ∈ definition.activities, ∀ topic ∈ activity.externalTopic,
        ∃ registration ∈ s.registry.lookup ⟨key, topic⟩, registration.contract = .sync
  | .operate .. => False
  | .process _ => False
  | .respond .. => False
  | .fireWatchdog _ => False
  | .setWorkerId worker => worker = s.settings.workerId
  | .release => 0 < s.sweepers
  | .dropSweeper => s.released = false ∨ 1 < s.sweepers
  | .answer number .process attempt => ∀ call ∈ s.calls, call.number = number →
      ∀ lease, call.subject = .process lease → attempt = .returned (results call.registration.key lease.context)
  | _ => True

namespace System

/-- The leased tasks that are not done with: those on their way to a processor, and those that processors are at. -/
def held (s : System) : List LeasedTask := s.handed ++ s.attempted

/-- The leased tasks whose attempts a move ends. -/
def endsIn (s : System) (move : Move) : List LeasedTask :=
  ((s.answered? move).bind fun call => call.subject.attempt?).toList

/-- A processor is registered for the tasks of a key, and answers at once. -/
def Registers (s : System) (key : RegistrationKey) : Prop :=
  ∃ registration, s.registry.lookup key = some registration ∧ registration.contract = .sync

/-- A dispatcher in order that someone holds. Its processors are at leased tasks, each in an action of the host. -/
structure Ready (s : System) : Prop where
  apart : s.names.Distinct
  orderly : s.engine.Orderly s.names
  hosted : s.Hosted
  sourced : s.Sourced fun _ => True
  kept : s.Kept
  synchronous : ∀ call ∈ s.calls, ∃ lease, call.subject = .process lease ∧ call.registration.key = lease.key ∧
    call.action.isSome = true
  plain : ∀ work ∈ s.toDo, ¬ work.Compensates

/-- A dispatcher keeps its name, its subscriptions and someone who holds it. -/
structure Abides (s after : System) : Prop where
  worker : after.settings.workerId = s.settings.workerId
  listening : s.listening ≤ after.listening
  kept : after.Kept

variable {s after : System} {results : RegistrationKey → TaskContext → Variables} {move : Move} {lease : LeasedTask}

theorem Registers.grow {given : LeasedTask → Prop} {key : RegistrationKey} (registers : s.Registers key)
    (distinct : s.registry.Distinct) (grows : s.Grows given after) : after.Registers key := by
  obtain ⟨registration, found, sync⟩ := registers
  have entry := grows.entries registration (List.mem_of_find?_eq_some found)
  refine ⟨registration, ?_, sync⟩
  rw [← Registry.lookup_key found]
  exact (grows.distinct distinct).lookup_mem entry

/-- A registered processor is called for a leased task when its action runs. -/
theorem runAction_process {action : Nat} {a : HostAction Work} (runs : s.host.running? action = some a)
    (work : a.work = .process lease) (registers : s.Registers lease.key) :
    ∃ call, call.subject = .process lease ∧ call.registration.key = lease.key ∧ call.action = some action ∧
      (s.runAction action).1.call? = some call ∧ (s.runAction action).2.engine = s.engine := by
  obtain ⟨registration, found, sync⟩ := registers
  have ran : s.runAction action = (.calling (s.callProcessor (some action) registration s.settings.workerId
      (.process lease)).1, (s.callProcessor (some action) registration s.settings.workerId (.process lease)).2) := by
    have found : s.registry.lookup ⟨lease.definitionKey, lease.topic⟩ = some registration := found
    simp only [System.runAction, runs, work, System.process, found, sync]
  rw [ran]
  exact ⟨_, rfl, Registry.lookup_key found, rfl, rfl, rfl⟩

theorem follow_plain {work other : Work} (follows : other ∈ work.follow) : ¬ other.Compensates := by
  cases work with
  | deferLease registration => exact List.mem_singleton.mp follows ▸ id
  | deferRetry registration delay => exact List.mem_singleton.mp follows ▸ id
  | handOut tasks =>
    obtain ⟨task, _, rfl⟩ := List.mem_map.mp follows
    exact id
  | _ => cases follows

namespace Ready

variable (ready : s.Ready)
include ready

theorem numbered : s.host.Numbered := ready.sourced.numbered

theorem distinct : (s.calls.map ProcessorCall.number).Nodup := ready.hosted.apart

/-- Processors are called for leased tasks whose processing begins. -/
theorem calling (suits : s.Suits results move) (registered : ∀ lease ∈ s.handed, s.Registers lease.key)
    {call : ProcessorCall} (calls : (s.step move).1.call? = some call) : ∃ lease,
      s.taken? move = some (.process lease) ∧ call.subject = .process lease ∧ call.registration.key = lease.key ∧
        call.action.isSome = true := by
  rcases call?_cases calls with ⟨lease, _, _, origin⟩ | ⟨_, _, _, responds, _⟩
  · rcases origin with brought | taken
    · rw [brought] at suits
      cases suits
    · obtain ⟨host, a, work, _, runs, _, step⟩ := taken?_step ready.numbered taken
      have handed : lease ∈ s.handed :=
        List.mem_flatMap.mpr ⟨_, taken?_mem ready.numbered taken, List.mem_singleton_self lease⟩
      obtain ⟨made, subject, key, action, same, _⟩ := runAction_process (s := { s with host := host }) runs work
        (registered lease handed)
      rw [step, same, Option.some.injEq] at calls
      subst calls
      exact ⟨lease, taken, subject, key, by rw [action]; rfl⟩
  · rw [responds] at suits
    cases suits

/-- A processor is at each leased task whose processing begins. -/
theorem called_eq (suits : s.Suits results move) (registered : ∀ lease ∈ s.handed, s.Registers lease.key) :
    ((s.step move).1.call?.bind fun call => call.subject.attempt?).toList =
      (s.taken? move).toList.flatMap Work.begun := by
  cases calls : (s.step move).1.call? with
  | some call =>
    obtain ⟨lease, taken, subject, _⟩ := ready.calling suits registered calls
    rw [taken, Option.bind_some, subject]
    rfl
  | none =>
    cases taken : s.taken? move with
    | none => rfl
    | some work =>
      cases begins : work with
      | process lease =>
        rw [begins] at taken
        obtain ⟨host, a, work, _, runs, _, step⟩ := taken?_step ready.numbered taken
        have handed : lease ∈ s.handed :=
          List.mem_flatMap.mpr ⟨_, taken?_mem ready.numbered taken, List.mem_singleton_self lease⟩
        obtain ⟨made, _, _, _, same, _⟩ := runAction_process (s := { s with host := host }) runs work
          (registered lease handed)
        rw [step, same] at calls
        cases calls
      | _ => rfl

/-- Leased tasks are held until their attempts end. -/
theorem held_step (suits : s.Suits results move) (registered : ∀ lease ∈ s.handed, s.Registers lease.key) :
    ((s.step move).2.held ++ s.endsIn move).Perm (s.held ++ s.leasedIn move) := by
  have handed := Multiset.coe_eq_coe.mpr (handed_step ready.numbered move)
  have attempted := Multiset.coe_eq_coe.mpr (attempted_step ready.numbered ready.distinct move)
  rw [ready.called_eq suits registered] at attempted
  simp only [← Multiset.coe_add] at handed attempted
  refine Multiset.coe_eq_coe.mp ?_
  simp only [held, endsIn, ← Multiset.coe_add]
  refine add_right_cancel (b := ((s.taken? move).toList.flatMap Work.begun : Multiset LeasedTask)) ?_
  rw [add_right_comm, add_right_comm ((s.step move).2.handed : Multiset LeasedTask), handed, add_assoc, attempted]
  abel

/-- Whoever sets something leaves the dispatcher its name, its subscriptions and someone who holds it. -/
theorem abides (suits : s.Suits results move) : s.Abides (s.step move).2 := by
  cases set' : move.sets with
  | false =>
    obtain ⟨_, stands⟩ := ready.hosted.step ready.numbered move (by rintro worker rfl; cases set')
    have stands := stands set'
    refine ⟨congrArg Settings.workerId stands.settings, Nat.le_of_eq stands.listening.symm, ?_⟩
    rw [Kept, stands.released, stands.sweepers]
    exact ready.kept
  | true =>
    cases move with
    | attach => exact ⟨rfl, Nat.le_succ _, ready.kept⟩
    | setWorkerId worker => exact ⟨suits, Nat.le_refl _, ready.kept⟩
    | setLockTimeout timeout =>
      simp only [System.step]
      split
      · next changed => exact ⟨setLockTimeout_workerId changed, Nat.le_refl _, ready.kept⟩
      · exact ⟨rfl, Nat.le_refl _, ready.kept⟩
    | release => exact ⟨rfl, Nat.le_refl _, .inr suits⟩
    | holdSweeper => exact ⟨rfl, Nat.le_refl _, .inr (Nat.succ_pos _)⟩
    | dropSweeper => exact ⟨rfl, Nat.le_refl _, suits.imp_right fun more => Nat.sub_pos_of_lt more⟩
    | _ => cases set'

/-- What suits a dispatcher in order leaves it in order. -/
theorem step (suits : s.Suits results move) (registered : ∀ lease ∈ s.handed, s.Registers lease.key) :
    (s.step move).2.Ready := by
  have named : ∀ worker, move = .setWorkerId worker → worker = s.settings.workerId := by
    rintro worker rfl
    exact suits
  obtain ⟨works, passes⟩ := passes_step ready.numbered move
  have hosted := (ready.hosted.step ready.numbered move named).1
  obtain ⟨apart, orderly⟩ := in_order_run ready.apart ready.orderly [move]
  refine ⟨apart, orderly, hosted, ready.sourced.grow (ready.sourced.step move fun _ _ _ _ => trivial),
    (ready.abides suits).kept, fun call member => ?_, fun work member compensates => ?_⟩
  · rcases mem_calls_step ready.numbered member with old | new
    · exact ready.synchronous call old
    · obtain ⟨lease, _, called⟩ := ready.calling suits registered new
      exact ⟨lease, called⟩
  · rcases List.mem_append.mp (passes.toDo.mem_iff.mp (List.mem_append_left _ member)) with old | new
    · exact ready.plain work old compensates
    · rcases List.mem_append.mp new with follows | more
      · obtain ⟨taken, _, among⟩ := List.mem_flatMap.mp follows
        exact follow_plain among compensates
      · obtain ⟨call, atCall, task, input, responds⟩ := passes.compensates work more compensates
        obtain ⟨lease, subject, _⟩ := ready.synchronous call atCall
        rw [subject] at responds
        cases responds

end Ready

end System

end TaskLeasing
