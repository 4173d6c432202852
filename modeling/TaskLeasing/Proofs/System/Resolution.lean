import TaskLeasing.Proofs.System.Scoping

namespace TaskLeasing.System

variable {s : System} {lease : LeasedTask} {registration : Registration}

/-- The processing of a task that has a registration calls its processor. -/
theorem process_found (found : s.registry.lookup ⟨lease.definitionKey, lease.topic⟩ = some registration)
    (action : Option Nat) : ∃ call after, s.process action lease = (.calling call, after) ∧
      call.registration = registration ∧ call.subject.attempt? = some lease := by
  unfold System.process
  simp only [found]
  refine ⟨_, _, rfl, rfl, ?_⟩
  cases registration.contract <;> rfl

/-- The host begins to process a task that has a registration: its processor is called. -/
theorem step_found (numbered : s.host.Numbered) {move : Move} (taken : s.taken? move = some (.process lease))
    (found : s.registry.lookup ⟨lease.definitionKey, lease.topic⟩ = some registration) :
    ∃ call after, s.step move = (.calling call, after) ∧ call.registration = registration ∧
      call.subject.attempt? = some lease := by
  obtain ⟨host, action, work, _, runs, _, stepped⟩ := taken?_step numbered taken
  let t : System := { s with host := host }
  have found' : t.registry.lookup ⟨lease.definitionKey, lease.topic⟩ = some registration := found
  obtain ⟨call, after, calling, own, attempt⟩ := process_found found' (some action.number)
  refine ⟨call, after, ?_, own, attempt⟩
  rw [stepped]
  simp only [System.runAction, runs, work, t] at calling ⊢
  rw [calling]

/-- What was leased for a registration resolves to it from then on, if leases are made for each definition. -/
theorem lookup_leased (names : Naming) (now : Instant) {settings : Settings} (gated : Bool)
    (distinct : names.Distinct) (perDefinition : settings.leasePerDefinition = true) {earlier : List Move}
    {leasing : Move}
    (leases : ((create names now settings gated).run earlier).leasesFor? leasing = some registration)
    (leased : lease ∈ (((create names now settings gated).run earlier).leaseAsk registration).leased)
    (later : List Move) :
    ((create names now settings gated).run earlier).Gives registration lease ∧
      ((create names now settings gated).run (earlier ++ leasing :: later)).registry.lookup
        ⟨lease.definitionKey, lease.topic⟩ = some registration := by
  let s := create names now settings gated
  have created : s.Sourced (s.LeasedIn []) := sourced_create names now settings gated
  have sourced := created.run earlier
  have orderly : (s.run earlier).engine.Orderly (s.run earlier).names := by
    rw [s.names_run earlier]
    exact orderly_run distinct (Engine.orderly_empty names) earlier
  have registered := sourced.leases leases
  have gives := sourced.gives orderly registered leased
  have same : (s.run earlier).settings.leasePerDefinition = settings.leasePerDefinition :=
    (created.grows_run [] earlier).perDefinition
  have key : registration.key = ⟨lease.definitionKey, lease.topic⟩ := by
    rw [gives.definition (same.trans perDefinition), gives.topic]
  have grows := created.grows_run earlier (leasing :: later)
  refine ⟨gives, ?_⟩
  rw [← key]
  exact (created.run _).distinct.lookup_mem (grows.entries registration registered)

/-- Where leases are made for each definition, every task that the dispatcher has leased finds its processor: when the
host begins to process it, whatever happened since, the processor is called that is registered for it, and this is the
registration that it was leased for, as often as it was. -/
theorem run_resolved (names : Naming) (now : Instant) (settings : Settings) (gated : Bool) (before : List Move)
    (distinct : names.Distinct) (perDefinition : settings.leasePerDefinition = true) {move : Move}
    {lease : LeasedTask} (taken : ((create names now settings gated).run before).taken? move = some (.process lease)) :
    let s := create names now settings gated
    ∃ call after, (s.run before).step move = (.calling call, after) ∧ call.subject.attempt? = some lease ∧
      (s.run before).registry.lookup ⟨lease.definitionKey, lease.topic⟩ = some call.registration ∧
      (∃ earlier leasing later, before = earlier ++ leasing :: later ∧
        (s.run earlier).leasesFor? leasing = some call.registration ∧ (s.run earlier).Gives call.registration lease) ∧
      ∀ earlier leasing later registration, before = earlier ++ leasing :: later →
        (s.run earlier).leasesFor? leasing = some registration →
        lease ∈ ((s.run earlier).leaseAsk registration).leased → registration = call.registration := by
  intro s
  have created : s.Sourced (s.LeasedIn []) := sourced_create names now settings gated
  have sourced := created.run before
  obtain ⟨earlier, leasing, later, registration, split, leases, leased⟩ :=
    sourced.works _ (taken?_mem sourced.numbered taken)
  obtain ⟨gives, found⟩ := lookup_leased names now gated distinct perDefinition leases leased later
  rw [← split] at found
  obtain ⟨call, after, calling, own, attempt⟩ := step_found sourced.numbered taken found
  refine ⟨call, after, calling, attempt, own ▸ found, ⟨earlier, leasing, later, split, own ▸ leases, own ▸ gives⟩, ?_⟩
  intro earlier' leasing' later' other split' leases' leased'
  obtain ⟨_, found'⟩ := lookup_leased names now gated distinct perDefinition leases' leased' later'
  rw [← split', found, Option.some.injEq] at found'
  rw [own, found']

/-- The payment is leased, and before it is processed another registration takes the same topic and a sweep is made. -/
def overtakenPayment : List Move := onePayment ++ [.register "refund" "money" none .none .sync, .sweep]

theorem run_resolved_payment :
    let s := create unaryNames .epoch (Settings.defaults "w") false
    ∃ lease, (s.run overtakenPayment).taken? (.start 3) = some (.process lease) ∧
      ∃ call after, (s.run overtakenPayment).step (.start 3) = (.calling call, after) ∧
        call.subject.attempt? = some lease ∧ call.registration.key = ⟨"order", "money"⟩ ∧
          ∃ earlier leasing later, overtakenPayment = earlier ++ leasing :: later ∧
            (s.run earlier).leasesFor? leasing = some call.registration ∧
              (s.run earlier).Gives call.registration lease := by
  obtain ⟨lease, taken, key⟩ : ∃ lease, ((create unaryNames .epoch (Settings.defaults "w") false).run
      overtakenPayment).taken? (.start 3) = some (.process lease) ∧
        (((create unaryNames .epoch (Settings.defaults "w") false).run overtakenPayment).registry.lookup
          ⟨lease.definitionKey, lease.topic⟩).map Registration.key = some ⟨"order", "money"⟩ := ⟨_, rfl, rfl⟩
  obtain ⟨call, after, calling, attempt, found, leased, _⟩ := run_resolved unaryNames .epoch (Settings.defaults "w")
    false overtakenPayment unaryNames_distinct rfl taken
  rw [found] at key
  exact ⟨lease, taken, call, after, calling, attempt, Option.some.inj key, leased⟩

end TaskLeasing.System
