import TaskLeasing.Proofs.System.Adding
import TaskLeasing.Proofs.System.Answering
import TaskLeasing.Proofs.System.Keeping

namespace TaskLeasing

/-- A lease gives tasks of its topic, and of its definition if it names one, each with the variables of the task's
instance that are within the request's scope. -/
theorem Engine.Sound.lease_scoped {e : Engine} (sound : e.Sound none) {now : Instant} {request : LeaseRequest}
    {tasks : List LeasedTask} (answered : (e.lease now request).result = .ok tasks) {lease : LeasedTask}
    (member : lease ∈ tasks) :
    lease.topic = request.topic ∧ request.definitionKey.all (· = lease.definitionKey) = true ∧
      ∃ run, e.instance? lease.instanceId = some run ∧ lease.context.vars = request.vars.select run.vars := by
  obtain ⟨expiry, _, _, rfl⟩ := lease_ok answered
  obtain ⟨record, chosen, rfl⟩ := List.mem_map.mp member
  obtain ⟨atRecord, fits⟩ := mem_chosenFor chosen
  obtain ⟨topic, definition, _⟩ := TaskRecord.isLeasable_iff.mp fits
  obtain ⟨run, atRun, own⟩ := sound.belongs record atRecord
  have found : e.instance? record.task.instanceId = some run := own.instanceId ▸ sound.instance?_eq atRun
  have vars : (e.handOver request expiry record).context.vars = ((e.instance? record.task.instanceId).map
    fun run => request.vars.select run.vars).getD .empty := rfl
  rw [found] at vars
  exact ⟨topic, definition, run, found, vars⟩

/-- A task that was leased in the course of moves. -/
def System.LeasedIn (s : System) (moves : List Move) (lease : LeasedTask) : Prop :=
  ∃ earlier leasing later registration, moves = earlier ++ leasing :: later ∧
    (s.run earlier).leasesFor? leasing = some registration ∧
      lease ∈ ((s.run earlier).leaseAsk registration).leased

/-- A task that a lease for a registration gives: one that the registration's key names, its definition being left
open if the dispatcher leases by topic alone, with the variables of its instance within the registration's scope. -/
structure System.Gives (s : System) (registration : Registration) (lease : LeasedTask) : Prop where
  leased : lease ∈ (s.leaseAsk registration).leased
  registered : s.registry.lookup registration.key = some registration
  topic : lease.topic = registration.key.topic
  definition : s.settings.leasePerDefinition = true → lease.definitionKey = registration.key.definitionKey
  selected : ∃ run, s.engine.instance? lease.instanceId = some run ∧
    lease.context.vars = registration.vars.select run.vars

namespace System

variable {s : System} {given : LeasedTask → Prop} {call : ProcessorCall} {lease : LeasedTask}

theorem run_append (s : System) (before after : List Move) : s.run (before ++ after) = (s.run before).run after :=
  List.foldl_append

theorem LeasedIn.append {moves : List Move} (leased : s.LeasedIn moves lease) (more : List Move) :
    s.LeasedIn (moves ++ more) lease := by
  obtain ⟨earlier, leasing, later, registration, rfl, leases, member⟩ := leased
  exact ⟨earlier, leasing, later ++ more, registration, by simp, leases, member⟩

theorem sourced_create (names : Naming) (now : Instant) (settings : Settings) (gated : Bool) :
    (create names now settings gated).Sourced given where
  numbered := Host.numbered_idle _
  distinct := Registry.distinct_empty
  calls := by simp [create]
  works := by
    intro work member
    cases gated <;> simp [toDo, deferred, awaiting, create, Host.idle] at member

/-- What a step brings up comes of what was leased until then. -/
theorem Sourced.concat {moves : List Move} (sourced : (s.run moves).Sourced (s.LeasedIn moves)) (move : Move) :
    (s.run moves).Grows (s.LeasedIn (moves ++ [move])) (s.run (moves ++ [move])) := by
  have wider := sourced.mono fun lease leased => LeasedIn.append leased [move]
  rw [run_append s moves]
  exact wider.step move fun registration leases lease member => ⟨moves, move, [], registration, rfl, leases, member⟩

/-- In a run all that is to be done comes of registrations and of what was leased in the run. -/
theorem Sourced.run (sourced : s.Sourced (s.LeasedIn [])) (moves : List Move) :
    (s.run moves).Sourced (s.LeasedIn moves) := by
  induction moves using List.reverseRecOn with
  | nil => exact sourced
  | append_singleton moves move ih =>
    exact (ih.mono fun lease leased => leased.append [move]).grow (ih.concat move)

theorem Grows.mono {others : LeasedTask → Prop} {after : System} (grows : s.Grows given after)
    (wider : ∀ task, given task → others task) : s.Grows others after :=
  { grows with
    works := fun numbered work member => (grows.works numbered work member).imp_right fun stems =>
      stems.mono (fun _ entry => entry) wider }

/-- From any point of a run on registrations only come in addition. -/
theorem Sourced.grows_run (sourced : s.Sourced (s.LeasedIn [])) (earlier later : List Move) :
    (s.run earlier).Grows (s.LeasedIn (earlier ++ later)) (s.run (earlier ++ later)) := by
  induction later using List.reverseRecOn with
  | nil =>
    rw [List.append_nil]
    exact .refl _
  | append_singleton later move ih =>
    rw [← List.append_assoc]
    exact (ih.mono fun lease leased => leased.append [move]).trans ((sourced.run _).concat move)

/-- The processor of a leased task is the one of its definition and topic. -/
theorem call?_process_eq {action : Option Nat} {task : LeasedTask}
    (calling : (s.process action task).1.call? = some call) : call.subject.attempt? = some task ∧
      s.registry.lookup ⟨task.definitionKey, task.topic⟩ = some call.registration := by
  unfold System.process at calling
  simp only at calling
  split at calling
  · cases calling
  · next registration found =>
    cases calling
    refine ⟨?_, found⟩
    cases registration.contract <;> rfl

theorem call?_runAction_eq {action : Nat} (calling : (s.runAction action).1.call? = some call) :
    ∃ a task, s.host.running? action = some a ∧ a.work = .process task ∧
      (s.process (some action) task).1.call? = some call := by
  unfold System.runAction at calling
  split at calling
  · cases calling
  · next a running =>
    split at calling
    · cases calling
    · cases calling
    · cases calling
    · cases calling
    · next task work =>
      refine ⟨a, task, running, work, ?_⟩
      split at calling
      · cases calling
      · next made t result =>
        rw [result]
        exact calling
    · cases calling

/-- A processor is called for a leased task when its processing begins or a caller brings it along, or for the
response to an open task. -/
theorem call?_cases {move : Move} {call : ProcessorCall} (calling : (s.step move).1.call? = some call) :
    (∃ lease, call.subject.attempt? = some lease ∧
      s.registry.lookup ⟨lease.definitionKey, lease.topic⟩ = some call.registration ∧
        (move = .process lease ∨ s.taken? move = some (.process lease))) ∨
      ∃ record ∈ s.engine.tasks, ∃ input, move = .respond record.task.id input ∧
        call.subject = .respond record.task input ∧ call.action = none := by
  have up {host : Host Work} {action : Nat}
      (calling : (System.runAction { s with host := host } action).1.call? = some call) :
      ∃ lease, call.subject.attempt? = some lease ∧
        s.registry.lookup ⟨lease.definitionKey, lease.topic⟩ = some call.registration ∧
          (host.running? action).map HostAction.work = some (.process lease) := by
    obtain ⟨a, task, running, work, calling⟩ := call?_runAction_eq calling
    obtain ⟨own, found⟩ := call?_process_eq calling
    exact ⟨task, own, found, Option.map_eq_some_iff.mpr ⟨a, running, work⟩⟩
  cases move with
  | process task =>
    rw [call?_process] at calling
    obtain ⟨own, found⟩ := call?_process_eq calling
    exact .inl ⟨task, own, found, .inl rfl⟩
  | respond task input =>
    rw [call?_respond] at calling
    rcases (s.respond_cases task input).2 with ⟨error, finished⟩ |
      ⟨other, record, responding, alone, subject, _, member, id⟩
    · rw [finished] at calling
      cases calling
    · rw [responding] at calling
      cases calling
      exact .inr ⟨record, member, input, by rw [id], subject, alone⟩
  | start action =>
    simp only [System.step] at calling
    split at calling
    · next found =>
      obtain ⟨lease, attempt, registered, taken⟩ := up calling
      exact .inl ⟨lease, attempt, registered, .inr (by simpa only [taken?, found, if_true] using taken)⟩
    · cases calling
  | resume action =>
    simp only [System.step] at calling
    split at calling
    · next found =>
      obtain ⟨lease, attempt, registered, taken⟩ := up calling
      exact .inl ⟨lease, attempt, registered, .inr (by simpa only [taken?, found, if_true] using taken)⟩
    · cases calling
  | setLockTimeout timeout =>
    simp only [System.step] at calling
    split at calling <;> cases calling
  | wake action =>
    simp only [System.step] at calling
    split at calling <;> cases calling
  | answer number kind ended =>
    have silent : (s.step (.answer number kind ended)).1.call? = none := s.call?_endCall number ended
    rw [silent] at calling
    cases calling
  | _ => cases calling

/-- A processor is called for a task that was given, or for one that a caller brought along. -/
theorem Sourced.calling (sourced : s.Sourced given) {move : Move} (calling : (s.step move).1.call? = some call)
    (attempt : call.subject.attempt? = some lease) :
    s.registry.lookup ⟨lease.definitionKey, lease.topic⟩ = some call.registration ∧
      (move = .process lease ∨ given lease) := by
  rcases call?_cases calling with ⟨other, own, found, origin⟩ | ⟨_, _, _, _, subject, _⟩
  · obtain rfl := Option.some.inj (own.symm.trans attempt)
    refine ⟨found, origin.imp_right fun taken => ?_⟩
    have stems := sourced.works _ (taken?_mem sourced.numbered taken)
    exact stems
  · rw [subject] at attempt
    cases attempt

/-- A lease is made for a registration of the dispatcher. -/
theorem Sourced.leases (sourced : s.Sourced given) {move : Move} {registration : Registration}
    (leases : s.leasesFor? move = some registration) : registration ∈ s.registry.entries := by
  have taken (host : Host Work) (action : Nat) (stems : ∀ a, host.running? action = some a →
      a.work.StemsFrom s.registry given)
      (leases : ((host.running? action).bind fun a => a.work.leasesFor?) = some registration) :
      registration ∈ s.registry.entries := by
    obtain ⟨a, running, own⟩ := Option.bind_eq_some_iff.mp leases
    have stems := stems a running
    cases work : a.work with
    | lease other =>
      rw [work] at own stems
      cases own
      exact stems
    | _ =>
      rw [work] at own
      cases own
  cases move with
  | dispatch key => exact List.mem_of_find?_eq_some leases
  | start action =>
    simp only [leasesFor?] at leases
    split at leases
    · next found => exact taken _ _ (sourced.start found).2 leases
    · cases leases
  | resume action =>
    simp only [leasesFor?] at leases
    split at leases
    · next found => exact taken _ _ (sourced.resume found).2 leases
    · cases leases
  | _ => cases leases

/-- A lease of the dispatcher gives what its registration is for. -/
theorem Sourced.gives (sourced : s.Sourced given) (orderly : s.engine.Orderly s.names) {registration : Registration}
    (registered : registration ∈ s.registry.entries) (leased : lease ∈ (s.leaseAsk registration).leased) :
    s.Gives registration lease := by
  have answered : ∃ tasks, (s.engine.lease s.now (s.leaseRequest registration)).result = .ok tasks ∧
      lease ∈ tasks := by
    have made : (s.leaseAsk registration).leased = Asked.leased ⟨.tasks, .lease (s.leaseRequest registration),
      (s.engine.lease s.now (s.leaseRequest registration)).result⟩ := rfl
    rw [made] at leased
    cases result : (s.engine.lease s.now (s.leaseRequest registration)).result with
    | ok tasks =>
      rw [result] at leased
      exact ⟨tasks, rfl, leased⟩
    | error reason =>
      rw [result] at leased
      cases leased
  obtain ⟨tasks, answered, member⟩ := answered
  obtain ⟨topic, definition, selected⟩ := orderly.sound.lease_scoped answered member
  refine ⟨leased, sourced.distinct.lookup_mem registered, topic, fun perDefinition => ?_, selected⟩
  simp only [leaseRequest, perDefinition, if_true, Option.all_some, decide_eq_true_eq] at definition
  exact definition.symm

/-- Every processor sees variables of the scope that its task was leased with. The processor that is called for a
leased task is the one registered for the task's definition and topic. Unless a caller brought the task along, it was
leased in the course of the run for a registration of the same topic, with those variables of its instance that were
within that registration's scope then; and this registration is the processor's own if leases are made for each
definition. -/
theorem run_scoped (names : Naming) (now : Instant) (settings : Settings) (gated : Bool) (before : List Move)
    (distinct : names.Distinct) {move : Move} {call : ProcessorCall} {lease : LeasedTask} {after : System}
    (stepped : ((create names now settings gated).run before).step move = (.calling call, after))
    (attempt : call.subject.attempt? = some lease) :
    let s := create names now settings gated
    (s.run before).registry.lookup ⟨lease.definitionKey, lease.topic⟩ = some call.registration ∧
      (move = .process lease ∨ ∃ earlier leasing later registration, before = earlier ++ leasing :: later ∧
        (s.run earlier).leasesFor? leasing = some registration ∧ (s.run earlier).Gives registration lease ∧
          (settings.leasePerDefinition = true → registration = call.registration)) := by
  intro s
  have created : s.Sourced (s.LeasedIn []) := sourced_create names now settings gated
  have called : ((s.run before).step move).1.call? = some call := by rw [stepped]; rfl
  obtain ⟨found, origin⟩ := (created.run before).calling called attempt
  refine ⟨found, origin.imp_right ?_⟩
  rintro ⟨earlier, leasing, later, registration, rfl, leases, leased⟩
  have sourced := created.run earlier
  have orderly : (s.run earlier).engine.Orderly (s.run earlier).names := by
    rw [s.names_run earlier]
    exact orderly_run distinct (Engine.orderly_empty names) earlier
  have registered := sourced.leases leases
  have gives := sourced.gives orderly registered leased
  refine ⟨earlier, leasing, later, registration, rfl, leases, gives, fun perDefinition => ?_⟩
  -- the registration is there until the end, and there is one alone under its key
  have grows := created.grows_run earlier (leasing :: later)
  have still := (created.run _).distinct.lookup_mem (grows.entries registration registered)
  have same : (s.run earlier).settings.leasePerDefinition = settings.leasePerDefinition :=
    (created.grows_run [] earlier).perDefinition
  have key : registration.key = ⟨lease.definitionKey, lease.topic⟩ := by
    rw [gives.definition (same.trans perDefinition), gives.topic]
  rw [key, found] at still
  exact (Option.some.inj still).symm

/-- An order with an amount to pay, and a secret. -/
def orderVars : Variables := (Variables.empty.insert "amount" (.bool true)).insert "secret" (.bool true)

/-- A dispatcher whose payments may see the amount of an order alone, up to the lease of its one task. -/
def onePayment : List Move :=
  [.attach, .register "order" "money" none (.names ["amount"]) .sync,
    .operate .done (.deploy ⟨"order", [⟨"pay", .serviceTask, some "money", none⟩]⟩),
    .operate .name (.start "order" none orderVars), .start 0, .start 1, .start 2]

/-- The processor of the payment sees the amount, and nothing else. -/
theorem run_scoped_payment :
    let s := create unaryNames .epoch (Settings.defaults "w") false
    ∃ call lease, ((s.run onePayment).step (.start 3)).1 = .calling call ∧ call.subject.attempt? = some lease ∧
      lease.context.vars.entries = [("amount", .bool true)] ∧ ∃ earlier leasing later,
        onePayment = earlier ++ leasing :: later ∧ (s.run earlier).Gives call.registration lease := by
  obtain ⟨call, after, lease, stepped, attempt, seen⟩ : ∃ call after lease,
      ((create unaryNames .epoch (Settings.defaults "w") false).run onePayment).step (.start 3) =
        (.calling call, after) ∧ call.subject.attempt? = some lease ∧
          lease.context.vars.entries = [("amount", .bool true)] := ⟨_, _, _, rfl, rfl, rfl⟩
  obtain ⟨_, origin⟩ := run_scoped unaryNames .epoch (Settings.defaults "w") false onePayment unaryNames_distinct
    stepped attempt
  obtain ⟨earlier, leasing, later, registration, split, _, gives, own⟩ := origin.resolve_left nofun
  rw [own rfl] at gives
  exact ⟨call, lease, congrArg Prod.fst stepped, attempt, seen, earlier, leasing, later, split, gives⟩

/-- Two definitions share a topic. The dispatcher is told to lease for the one that may see all, and takes the task of
the other, which is to see nothing. -/
def sharedTopic : List Move :=
  [.register "order" "money" none .all .sync, .register "refund" "money" none .none .sync,
    .operate .done (.deploy ⟨"refund", [⟨"pay", .serviceTask, some "money", none⟩]⟩),
    .operate .name (.start "refund" none orderVars), .dispatch ⟨"order", "money"⟩, .start 0]

/-- Where leases are made by topic alone, a processor may be shown what its own registration leaves out. -/
theorem run_shared_topic :
    let settings := { Settings.defaults "w" with leasePerDefinition := false }
    let s := create unaryNames .epoch settings false
    settings.fault? = none ∧ ∃ call lease run, ((s.run sharedTopic).step (.start 1)).1 = .calling call ∧
      call.subject.attempt? = some lease ∧ call.registration.vars = .none ∧
        (s.run (sharedTopic.take 4)).engine.instance? lease.instanceId = some run ∧
          lease.context.vars ≠ call.registration.vars.select run.vars := by
  refine ⟨rfl, _, _, _, rfl, rfl, rfl, rfl, fun same => ?_⟩
  exact absurd (congrArg Variables.isEmpty same) (by decide)

end System

end TaskLeasing
