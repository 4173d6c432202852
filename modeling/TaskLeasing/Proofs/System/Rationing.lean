import TaskLeasing.Proofs.System.Carrying
import TaskLeasing.Proofs.System.Rations

namespace TaskLeasing

/-- The beginning of an attempt at a task, if a call of a processor is one. -/
def begins (task : String) (now : Instant) (call? : Option ProcessorCall) : List AttemptEvent :=
  ((call?.bind fun call => call.subject.attempt?.filter fun lease => lease.id = task).map fun lease =>
    .called now lease.retries).toList

/-- A retryable failure of an attempt, with what is decided to follow. -/
def LeasedTask.failed (lease : LeasedTask) (now : Instant) (wait : Span) (failure : RetryableFailure) : AttemptEvent :=
  .failed now failure.maxAttempts (lease.decision wait failure)

/-- The leases that processors are at. -/
def System.attempted (s : System) : List LeasedTask := s.calls.filterMap fun call => call.subject.attempt?

/-- Whether a processor is at a task. -/
def System.trying (s : System) (task : String) : Bool := s.attempted.any fun lease => lease.id = task

/-- The leases of a task that may be tried or are: those that are held elsewhere, that are on their way, and that
processors are at. -/
def System.underway (s : System) (task : String) (held : List LeasedTask) : List LeasedTask :=
  (held ++ (s.handed ++ s.attempted)).filter fun lease => lease.id = task

/-- No attempt at a task has outlasted its lease. -/
def System.Prompt (s : System) (task : String) : Prop :=
  ∀ lease ∈ s.attempted, lease.id = task → s.now < lease.lockExpiry

/-- A dispatcher whose calls and works are told apart by their numbers, and that calls under one name. -/
structure System.InOrder (s : System) : Prop where
  apart : s.names.Distinct
  numbered : s.host.Numbered
  distinct : (s.calls.map ProcessorCall.number).Nodup
  issued : ∀ call ∈ s.calls, call.number ≤ s.callCount
  own : ∀ call ∈ s.calls, call.worker = s.settings.workerId

/-- A dispatcher that tries a task as often as its engine gives it to be tried. -/
structure System.Rationed (s : System) (task : String) (held : List LeasedTask) (events : List AttemptEvent) :
    Prop extends System.InOrder s where
  rations : ∃ left, s.engine.Rations s.names s.now s.settings.workerId task (s.underway task held) events left ∧
    Course events left (s.trying task)

namespace System

variable {s after : System} {task : String} {held gone leases : List LeasedTask} {events : List AttemptEvent}
  {asks : List Asked} {a : HostAction Work} {lease : LeasedTask}

theorem perm_underway {t : System} {others : List LeasedTask}
    (perm : (held ++ (s.handed ++ s.attempted)).Perm (others ++ (t.handed ++ t.attempted))) :
    (s.underway task held).Perm (t.underway task others) := perm.filter _

namespace InOrder

variable (order : s.InOrder)
include order

theorem turn (names : after.names = s.names) (worker : after.settings.workerId = s.settings.workerId)
    (calls : after.calls = s.calls) (callCount : after.callCount = s.callCount) (numbered : after.host.Numbered) :
    after.InOrder where
  apart := names ▸ order.apart
  numbered := numbered
  distinct := calls ▸ order.distinct
  issued := by
    rw [calls, callCount]
    exact order.issued
  own := by
    rw [calls, worker]
    exact order.own

theorem of_does (does : s.Does after asks leases) : after.InOrder :=
  order.turn does.names (congrArg _ does.settings) does.calls does.callCount (does.numbered order.numbered)

theorem call (action : Option Nat) (registration : Registration) (subject : CallSubject) :
    (s.callProcessor action registration s.settings.workerId subject).2.InOrder where
  apart := order.apart
  numbered := order.numbered
  distinct := by
    refine List.map_append ▸ order.distinct.append (List.nodup_singleton _) fun number old new => ?_
    obtain ⟨other, atOther, rfl⟩ := List.mem_map.mp old
    have above := order.issued other atOther
    rw [List.mem_singleton.mp new] at above
    exact Nat.not_succ_le_self _ above
  issued := List.forall_mem_append.mpr ⟨fun other member => Nat.le_succ_of_le (order.issued other member),
    List.forall_mem_singleton.mpr (Nat.le_refl _)⟩
  own := List.forall_mem_append.mpr ⟨order.own, List.forall_mem_singleton.mpr rfl⟩

theorem dropCall (number : Nat) : (s.dropCall number).InOrder where
  apart := order.apart
  numbered := order.numbered
  distinct := order.distinct.sublist (List.filter_sublist.map _)
  issued call member := order.issued call (List.mem_of_mem_filter member)
  own call member := order.own call (List.mem_of_mem_filter member)

end InOrder

namespace Rationed

/-- What is underway may change hands, while the engine keeps count. -/
theorem turn (rationed : s.Rationed task gone events) (order : after.InOrder) (names : after.names = s.names)
    (worker : after.settings.workerId = s.settings.workerId) (calls : after.calls = s.calls)
    (rations : ∀ left, s.engine.Rations s.names s.now s.settings.workerId task (s.underway task gone) events left →
      after.engine.Rations s.names after.now s.settings.workerId task (after.underway task held) events left) :
    after.Rationed task held events := by
  obtain ⟨left, before, course⟩ := rationed.rations
  have trying : after.trying task = s.trying task := by simp only [trying, attempted, calls]
  refine ⟨order, ?_⟩
  rw [names, worker, trying]
  exact ⟨left, rations left before, course⟩

/-- What a part of a move does with the leases at hand, and those that it is granted, is to leave them to be brought
to their processors, or keep them at hand. -/
theorem of_does (rationed : s.Rationed task gone events) (does : s.Does after asks leases) (granted : List LeasedTask)
    (spread : (gone ++ granted).Perm (leases ++ held))
    (rations : ∀ left, s.engine.Rations s.names s.now s.settings.workerId task (s.underway task gone) events left →
      after.engine.Rations s.names s.now s.settings.workerId task
        (s.underway task gone ++ granted.filter fun lease => lease.id = task) events left) :
    after.Rationed task held events := by
  have attempted : after.attempted = s.attempted := by simp only [System.attempted, does.calls]
  have perm : (s.underway task gone ++ granted.filter fun lease => lease.id = task).Perm
      (after.underway task held) := by
    have handed := Multiset.coe_eq_coe.mpr does.handed
    have spread := Multiset.coe_eq_coe.mpr spread
    simp only [← Multiset.coe_add] at handed spread
    rw [underway, ← List.filter_append]
    refine List.Perm.filter _ (Multiset.coe_eq_coe.mp ?_)
    simp only [← Multiset.coe_add, attempted, handed]
    rw [add_right_comm, spread]
    abel
  have order := rationed.toInOrder.of_does does
  refine rationed.turn order does.names (congrArg _ does.settings) does.calls fun left before => ?_
  rw [does.now]
  exact (rations left before).of_perm [] (by rwa [List.append_nil])

/-- Calls that spare the task and lease none leave all as it is. -/
theorem spared (rationed : s.Rationed task held events) (does : s.Does after asks [])
    (spares : ∀ ask ∈ asks, ask.operation.Spares task ∧ ask.leased = []) : after.Rationed task held events := by
  refine rationed.of_does does [] (by simp) fun left before => ?_
  rw [List.filter_nil, List.append_nil]
  refine does.engine.keeps (P := fun e => e.Rations s.names s.now s.settings.workerId task (s.underway task held)
    events left) before fun e rations ask member heard => ?_
  obtain ⟨spares, unleased⟩ := spares ask member
  have none' : ask.granted s.settings.workerId task = [] :=
    List.sublist_nil.mp (unleased ▸ ask.granted_sublist s.settings.workerId task)
  have hears := rations.hear rationed.apart heard spares
  rwa [none', List.append_nil] at hears

theorem tames (rationed : s.Rationed task held events) (tames : s.Tames after) : after.Rationed task held events := by
  obtain ⟨asks, tame, does⟩ := tames
  exact rationed.spared does fun ask member => ⟨(tame ask member).spares task, (tame ask member).unleased⟩

theorem silent (rationed : s.Rationed task held events) (does : s.Does after [] []) :
    after.Rationed task held events := rationed.tames does.tames

/-- Leases at hand may be left to be brought to their processors. -/
theorem leave (rationed : s.Rationed task (leases ++ held) events) (does : s.Does after [] leases) :
    after.Rationed task held events := by
  refine rationed.of_does does [] (by simp) fun left before => ?_
  rw [List.filter_nil, List.append_nil, show after.engine = s.engine from does.engine]
  exact before

/-- Leases at hand may be let go. -/
theorem drop (gone : List LeasedTask) (rationed : s.Rationed task (gone ++ held) events) :
    s.Rationed task held events := by
  refine rationed.turn rationed.toInOrder rfl rfl rfl fun _ before => ?_
  refine before.of_perm (gone.filter fun lease => lease.id = task) ?_
  rw [underway, underway, ← List.filter_append, List.append_assoc]
  exact List.perm_append_comm.filter _

/-- Leases that change hands at the host stay underway. -/
theorem of_host (rationed : s.Rationed task gone events) {host : Host Work} (numbered : host.Numbered)
    (perm : (gone ++ s.handed).Perm (held ++ ({ s with host := host } : System).handed)) :
    System.Rationed { s with host := host } task held events := by
  refine rationed.turn { rationed.toInOrder with numbered := numbered } rfl rfl rfl fun _ before => ?_
  refine before.of_perm [] ?_
  rw [List.append_nil]
  refine perm_underway ?_
  rw [← List.append_assoc, ← List.append_assoc]
  exact perm.append_right _

/-- What the dispatcher leases for itself is on its way then. -/
theorem leased (rationed : s.Rationed task held events) (registration : Registration)
    (does : s.Does after [s.leaseAsk registration] (s.leaseAsk registration).leased) :
    after.Rationed task held events := by
  refine rationed.of_does does (s.leaseAsk registration).leased List.perm_append_comm fun left before => ?_
  have granted : (s.leaseAsk registration).granted s.settings.workerId task =
      (s.leaseAsk registration).leased.filter fun lease => lease.id = task := by
    unfold leaseAsk
    cases (s.ask (.lease (s.leaseRequest registration))).1 with
    | error reason => rfl
    | ok tasks => exact if_pos rfl
  obtain ⟨heard, engine⟩ := does.engine
  rw [engine, ← granted]
  exact before.hear rationed.apart heard trivial

end Rationed

/-- The leases that processors are at, once one more is called. -/
theorem attempted_callProcessor (s : System) (action : Option Nat) (registration : Registration) (worker : String)
    (subject : CallSubject) : (s.callProcessor action registration worker subject).2.attempted =
      s.attempted ++ subject.attempt?.toList := by
  change (s.calls ++ [(⟨s.callCount + 1, action, registration, worker, subject⟩ : ProcessorCall)]).filterMap _ = _
  rw [List.filterMap_append]
  cases attempt : subject.attempt? <;> simp [attempted, attempt]

/-- The attempts that are left when a call has ended. -/
theorem attempted_dropped (distinct : (s.calls.map ProcessorCall.number).Nodup) {number : Nat} {call : ProcessorCall}
    (pending : s.calls.find? (fun other => other.number = number) = some call) :
    s.attempted.Perm (call.subject.attempt?.toList ++ (s.dropCall number).attempted) := by
  have numbered : call.number = number := by simpa using List.find?_some pending
  subst numbered
  have apart := (perm_cons_filter distinct (List.mem_of_find?_eq_some pending)).filterMap
    fun call => call.subject.attempt?
  rw [List.filterMap_cons] at apart
  cases attempt : call.subject.attempt? <;> rw [attempt] at apart <;> exact apart

theorem trying_eq_false (others : ∀ lease ∈ s.attempted, lease.id ≠ task) : s.trying task = false :=
  List.any_eq_false.mpr fun lease member => by simpa using others lease member

namespace Rationed

/-- A lease of the task that lasts is the only one underway that does. -/
theorem alone (rationed : s.Rationed task held events) {rest : List LeasedTask}
    (among : (held ++ (s.handed ++ s.attempted)).Perm (lease :: rest)) (id : lease.id = task)
    (lasts : s.now < lease.lockExpiry) : ∀ other ∈ rest, other.id = task → ¬ s.now < other.lockExpiry := by
  obtain ⟨left, rations, _⟩ := rationed.rations
  intro other member same
  have among := among.filter fun lease => lease.id = task
  rw [List.filter_cons_of_pos (by simpa using id)] at among
  exact rations.only among lasts other (List.mem_filter.mpr ⟨member, by simpa using same⟩)

/-- A processor is called for a task when no other is at it, with the retries that are left. -/
theorem call (subject : CallSubject) (rationed : s.Rationed task (subject.attempt?.toList ++ held) events)
    (action : Option Nat) (registration : Registration)
    (prompt : (s.callProcessor action registration s.settings.workerId subject).2.Prompt task) :
    (s.callProcessor action registration s.settings.workerId subject).2.Rationed task held (events ++
      begins task s.now (some (s.callProcessor action registration s.settings.workerId subject).1)) := by
  have attempted := s.attempted_callProcessor action registration s.settings.workerId subject
  have perm : (s.underway task (subject.attempt?.toList ++ held)).Perm
      ((s.callProcessor action registration s.settings.workerId subject).2.underway task held) := by
    refine perm_underway (Multiset.coe_eq_coe.mp ?_)
    simp only [← Multiset.coe_add, attempted]
    change _ = (held : Multiset LeasedTask) + (s.handed + _)
    abel
  obtain ⟨left, rations, course⟩ := rationed.rations
  have same := rations.of_perm [] (perm.trans (by rw [List.append_nil]))
  refine ⟨rationed.toInOrder.call action registration subject, left, ?_⟩
  have begun : begins task s.now (some (s.callProcessor action registration s.settings.workerId subject).1) =
      ((subject.attempt?.filter fun lease => lease.id = task).map fun lease =>
        .called s.now lease.retries).toList := rfl
  have trying : (s.callProcessor action registration s.settings.workerId subject).2.trying task =
      (s.trying task || (subject.attempt?.filter fun lease => lease.id = task).isSome) := by
    rw [System.trying, attempted, List.any_append]
    cases subject.attempt? <;> simp [System.trying, Option.filter, apply_ite]
  cases attempt : subject.attempt?.filter fun lease => lease.id = task with
  | none =>
    rw [begun, trying, attempt, Option.map_none, Option.toList_none, List.append_nil, Option.isSome_none, Bool.or_false]
    exact ⟨same, course⟩
  | some lease =>
    obtain ⟨attempt', id⟩ := Option.filter_eq_some_iff.mp attempt
    have id : lease.id = task := by simpa using id
    have lasts : s.now < lease.lockExpiry := by
      refine prompt lease ?_ id
      simp [attempted, attempt']
    rw [attempt'] at rationed
    -- no other attempt at the task is underway, as its lease would last too
    have idle : s.trying task = false := trying_eq_false fun other member same =>
      rationed.alone (.refl _) id lasts other (by simp [member]) same
        (prompt other (by simp [attempted, member]) same)
    have among : lease ∈ s.underway task (subject.attempt?.toList ++ held) := by
      simp [underway, attempt', id]
    have current := rations.current lease among lasts
    rw [idle] at course
    rw [begun, trying, attempt, Option.isSome_some, Bool.or_true, Option.map_some, Option.toList_some, current.retries]
    exact ⟨same.called (perm.mem_iff.mp among) _ _, course.call current.remains current.waited⟩

/-- A call that is no attempt at the task makes no difference when it has ended. -/
theorem dropCall (rationed : s.Rationed task held events) {number : Nat} {call : ProcessorCall}
    (pending : s.calls.find? (fun other => other.number = number) = some call)
    (other : ∀ lease, call.subject.attempt? = some lease → lease.id ≠ task) :
    (s.dropCall number).Rationed task held events := by
  have attempted := attempted_dropped rationed.distinct pending
  have same : s.attempted.filter (fun lease => lease.id = task) |>.Perm
      ((s.dropCall number).attempted.filter fun lease => lease.id = task) := by
    have kept := attempted.filter fun lease => lease.id = task
    rw [List.filter_append] at kept
    cases attempt : call.subject.attempt? with
    | none => simpa [attempt] using kept
    | some lease => simpa [attempt, other lease attempt] using kept
  have trying : (s.dropCall number).trying task = s.trying task := by
    rw [System.trying, System.trying, attempted.any_eq, List.any_append]
    cases attempt : call.subject.attempt? with
    | none => rfl
    | some lease => simp [other lease attempt]
  obtain ⟨left, rations, course⟩ := rationed.rations
  refine ⟨rationed.toInOrder.dropCall number, left, rations.of_perm [] ?_, ?_⟩
  · simp only [underway, List.filter_append, List.append_nil]
    exact (same.append_left _).append_left _
  · rw [trying]
    exact course

/-- When an attempt at the task has ended, and its lease lasts, there is no other. -/
theorem ended (rationed : s.Rationed task held events) (prompt : s.Prompt task) {number : Nat} {call : ProcessorCall}
    (pending : s.calls.find? (fun other => other.number = number) = some call)
    (attempt : call.subject.attempt? = some lease) (id : lease.id = task)
    (does : (s.dropCall number).Does after asks []) {more : List AttemptEvent}
    (ends : ∀ left rest, s.engine.Rations s.names s.now s.settings.workerId task (s.underway task held) events left →
      (s.underway task held).Perm (lease :: rest) → s.now < lease.lockExpiry → lease.retries = left →
      Course events left true → ∃ remaining, Course more remaining false ∧
        after.engine.Rations s.names s.now s.settings.workerId task rest more remaining) :
    after.Rationed task held more := by
  subst id
  have attempted := attempted_dropped rationed.distinct pending
  rw [attempt, Option.toList_some, List.singleton_append] at attempted
  have member : lease ∈ s.attempted := attempted.mem_iff.mpr (List.mem_cons_self ..)
  have lasts := prompt lease member rfl
  have among : (held ++ (s.handed ++ s.attempted)).Perm
      (lease :: (held ++ (s.handed ++ (s.dropCall number).attempted))) := by
    rw [← List.append_assoc, ← List.append_assoc]
    exact (attempted.append_left _).trans List.perm_middle
  have others := rationed.alone among rfl lasts
  have others : ∀ other ∈ (s.dropCall number).attempted, other.id ≠ lease.id := fun other atOther same => by
    refine others other (by simp [atOther]) same (prompt other ?_ same)
    exact attempted.mem_iff.mpr (List.mem_cons_of_mem _ atOther)
  have dropped : after.attempted = (s.dropCall number).attempted := by simp only [System.attempted, does.calls]
  have underway : (s.underway lease.id held).Perm (lease :: after.underway lease.id held) := by
    have handed : s.handed.Perm after.handed := by
      have handed := does.handed.symm
      rwa [List.append_nil] at handed
    have stays := (handed.append_right after.attempted).append_left held
    rw [← dropped] at among
    have filtered := (among.trans (stays.cons lease)).filter fun other => other.id = lease.id
    rwa [List.filter_cons_of_pos (by simp)] at filtered
  obtain ⟨left, rations, course⟩ := rationed.rations
  have retries := (rations.current lease (underway.mem_iff.mpr (List.mem_cons_self ..)) lasts).retries
  have trying : s.trying lease.id = true := List.any_eq_true.mpr ⟨lease, member, by simp⟩
  rw [trying] at course
  obtain ⟨remaining, course, rations⟩ := ends left _ rations underway lasts retries course
  refine ⟨(rationed.toInOrder.dropCall number).of_does does, remaining, ?_, ?_⟩
  · rw [does.names, does.now, does.settings]
    exact rations
  · rw [trying_eq_false (dropped ▸ others)]
    exact course

/-- An attempt at the task that fails leaves what is decided on it. -/
theorem failed (rationed : s.Rationed task held events) (prompt : s.Prompt task) {number : Nat} {call : ProcessorCall}
    (pending : s.calls.find? (fun other => other.number = number) = some call)
    (attempt : call.subject.attempt? = some lease) (id : lease.id = task) {failure : RetryableFailure}
    (does : (s.dropCall number).Does after [(s.dropCall number).failureAsk call.worker lease failure] [])
    (accepted : ∃ expiry, deadline s.now (lease.decision s.settings.retryDelay failure).delay = .ok expiry) :
    after.Rationed task held (events ++ [lease.failed s.now s.settings.retryDelay failure]) := by
  refine rationed.ended prompt pending attempt id does fun left rest rations among lasts retries course =>
    ⟨some (lease.decision s.settings.retryDelay failure).retriesLeft, ?_, ?_⟩
  · rw [LeasedTask.failed, LeasedTask.decision, retries]
    exact course.fail
  · rw [rationed.own call (List.mem_of_find?_eq_some pending)] at does
    obtain ⟨_, engine⟩ := does.engine
    rw [engine]
    subst id
    exact rations.fail rationed.apart among lasts ⟨rfl, rfl⟩ accepted

/-- An attempt that finishes the task is the last. -/
theorem finished (rationed : s.Rationed task held events) (prompt : s.Prompt task) {number : Nat} {call : ProcessorCall}
    (pending : s.calls.find? (fun other => other.number = number) = some call)
    (attempt : call.subject.attempt? = some lease) (id : lease.id = task)
    (finishes : (s.dropCall number).Finishes call.worker lease.id after) : after.Rationed task held events := by
  obtain ⟨asks, last, tame, finish, does⟩ := finishes
  rw [rationed.own call (List.mem_of_find?_eq_some pending), id] at finish
  exact rationed.ended prompt pending attempt id does fun left rest rations among lasts _ course =>
    ⟨some 0, course.stop, rations.finish rationed.apart among lasts tame finish does.engine⟩

end Rationed

end System

end TaskLeasing
