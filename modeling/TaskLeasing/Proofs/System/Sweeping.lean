import TaskLeasing.Proofs.System.Inquiry
import TaskLeasing.Proofs.System.Leases

namespace TaskLeasing

/-- Something that happens to a dispatcher: a move, or the notice of an activity that was entered. -/
inductive Occurrence
  | move (move : Move)
  | notice (event : ActivityStarted)

/-- The registration that work will lease for. -/
def Work.toLease? : Work → Option Registration
  | .deferLease registration => some registration
  | .lease registration => some registration
  | .deferRetry registration _ => some registration
  | _ => none

/-- Whether a move is a call of the engine by another party. -/
def Move.isForeign : Move → Bool
  | .operate .. => true
  | _ => false

/-- What a lease for enough tasks does to an open task: the task is handed out under the new lock if it fits, and left
alone if it does not. -/
theorem Engine.lease_meets {e : Engine} (request : LeaseRequest) (sound : e.Sound none) {now expiry : Instant}
    (available : e.available = true) (accepted : deadline now request.lock = .ok expiry)
    (enough : e.tasks.length ≤ request.maxTasks) {record : TaskRecord} (member : record ∈ e.tasks) :
    ∃ tasks, (e.lease now request).result = .ok tasks ∧
      (record.isLeasable request now = true → record.lock request.worker expiry ∈ (e.lease now request).engine.tasks ∧
        ∃ lease ∈ tasks, lease.id = record.task.id ∧ lease.lockExpiry = expiry) ∧
      (record.isLeasable request now = false → record ∈ (e.lease now request).engine.tasks ∧
        ∀ lease ∈ tasks, lease.id ≠ record.task.id) := by
  have chosen (fits : record.isLeasable request now = true) : record ∈ e.chosenFor now request :=
    chosenFor_all enough now ▸ List.mem_filter.mpr ⟨member, fits⟩
  have spared (unfit : record.isLeasable request now = false) :
      record.task.id ∉ (e.chosenFor now request).map fun r => r.task.id := by
    intro among
    rw [(mem_chosenFor ((sound.chosen_iff member).mp among)).2] at unfit
    cases unfit
  rw [lease_eq available accepted]
  refine ⟨_, rfl, fun fits => ⟨?_, ?_⟩, fun unfit => ⟨?_, fun lease handed id => ?_⟩⟩
  · exact List.mem_map.mpr ⟨record, member, if_pos (List.mem_map_of_mem (chosen fits))⟩
  · exact ⟨_, List.mem_map_of_mem (chosen fits), rfl, rfl⟩
  · exact List.mem_map.mpr ⟨record, member, if_neg (spared unfit)⟩
  · obtain ⟨other, atOther, rfl⟩ := List.mem_map.mp handed
    exact spared unfit (List.mem_map.mpr ⟨other, atOther, id⟩)

namespace System

def happen (s : System) : Occurrence → System
  | .move move => (s.step move).2
  | .notice event => s.react event

/-- The state after occurrences one after the other. -/
def past (s : System) (occurrences : List Occurrence) : System := occurrences.foldl happen s

/-- The registration that the dispatcher leases for at once. -/
def leasing? (s : System) : Occurrence → Option Registration
  | .move move => s.leasesFor? move
  | .notice _ => none

/-- The tasks that the dispatcher is given at once. -/
def grants (s : System) (occurrence : Occurrence) : List LeasedTask :=
  (s.leasing? occurrence).elim [] fun registration => (s.leaseAsk registration).leased

/-- The leased tasks whose processing begins at once. -/
def begins (s : System) : Occurrence → List LeasedTask
  | .move move => (s.taken? move).toList.flatMap Work.begun
  | .notice _ => []

/-- What is told of each occurrence in the state it finds, in order. -/
def along (tell : System → Occurrence → List LeasedTask) : System → List Occurrence → List LeasedTask
  | _, [] => []
  | s, occurrence :: rest => tell s occurrence ++ along tell (s.happen occurrence) rest

/-- What happens while no one calls the engine but the dispatcher, and that to lease, under locks that end within the
calendar. The clock goes on or stands. -/
def Calm (s : System) : Occurrence → Prop
  | .notice _ => True
  | .move move => s.now ≤ (s.step move).2.now ∧ move.isForeign = false ∧
      (∀ ask ∈ s.asksIn move, ask.request?.isSome = true) ∧ ∀ registration ∈ s.leasesFor? move,
        (deadline s.now (registration.effectiveLock s.settings.lockTimeout)).isOk = true

/-- How many works will lease for a registration. -/
def pending (s : System) (registration : Registration) : Nat :=
  s.toDo.countP fun work => work.toLease? = some registration

/-- How many works will lease for registrations of a kind. -/
def leasesToDo (s : System) (kind : Registration → Bool) : Nat := s.toDo.countP fun work => work.toLease?.any kind

instance decidableCalm (s : System) : (occurrence : Occurrence) → Decidable (s.Calm occurrence)
  | .notice _ => .isTrue trivial
  | .move move => inferInstanceAs (Decidable (s.now ≤ (s.step move).2.now ∧ move.isForeign = false ∧
      (∀ ask ∈ s.asksIn move, ask.request?.isSome = true) ∧ ∀ registration ∈ s.leasesFor? move,
        (deadline s.now (registration.effectiveLock s.settings.lockTimeout)).isOk = true))

def Calmly : System → List Occurrence → Prop
  | _, [] => True
  | s, occurrence :: rest => s.Calm occurrence ∧ (s.happen occurrence).Calmly rest

instance decidableCalmly : (s : System) → (occurrences : List Occurrence) → Decidable (s.Calmly occurrences)
  | _, [] => .isTrue trivial
  | s, occurrence :: rest =>
    have := decidableCalmly (s.happen occurrence) rest
    inferInstanceAs (Decidable (s.Calm occurrence ∧ (s.happen occurrence).Calmly rest))

/-- A system in order whose engine is available and has no more open tasks than a lease asks for. -/
structure Steady (s : System) : Prop where
  apart : s.names.Distinct
  orderly : s.engine.Orderly s.names
  numbered : s.host.Numbered
  available : s.engine.available = true
  few : s.engine.tasks.length ≤ unboundedLease

variable {s : System} {occurrence : Occurrence} {rest : List Occurrence} {record : TaskRecord}

/-- Whatever happens, the names and the numbers are kept in order. -/
theorem names_happen (s : System) (occurrence : Occurrence) : (s.happen occurrence).names = s.names := by
  cases occurrence with
  | move move => exact (s.turns_step move).names
  | notice event =>
    obtain ⟨_, answers⟩ := s.answers_react event
    exact answers.defers.names

theorem numbered_happen (numbered : s.host.Numbered) (occurrence : Occurrence) :
    (s.happen occurrence).host.Numbered := by
  cases occurrence with
  | move move =>
    obtain ⟨_, passes⟩ := passes_step numbered move
    exact passes.numbered
  | notice event =>
    obtain ⟨_, answers⟩ := s.answers_react event
    exact answers.defers.numbered numbered

theorem orderly_happen (apart : s.names.Distinct) (orderly : s.engine.Orderly s.names) (occurrence : Occurrence) :
    (s.happen occurrence).engine.Orderly (s.happen occurrence).names := by
  cases occurrence with
  | move move => exact (in_order_run apart orderly [move]).2
  | notice event =>
    obtain ⟨_, answers⟩ := s.answers_react event
    have engine : (s.react event).engine = s.engine := answers.defers.engine
    rw [names_happen, happen, engine]
    exact orderly

/-- In calm the dispatcher leases, or leaves the engine alone. -/
theorem Calm.asks {move : Move} (calm : s.Calm (.move move)) :
    (s.leasesFor? move = none ∧ s.asksIn move = []) ∨
      ∃ registration, s.leasesFor? move = some registration ∧ s.asksIn move = [s.leaseAsk registration] := by
  obtain ⟨_, own, leases, _⟩ := calm
  have others : ∀ kind operation, move ≠ .operate kind operation := by
    rintro kind operation rfl
    cases own
  have inquires := s.inquires_step move others
  generalize s.asksIn move = asks at leases inquires ⊢
  cases inquires with
  | @leases registration same => exact .inr ⟨registration, same, rfl⟩
  | fails =>
    have reports := leases _ (List.mem_singleton_self _)
    cases reports
  | tamely unleased tame =>
    refine .inl ⟨unleased, List.eq_nil_iff_forall_not_mem.mpr fun ask member => ?_⟩
    have leased := leases ask member
    have tame := tame ask member
    obtain ⟨kind, operation, result⟩ := ask
    cases operation with
    | lease request => exact tame
    | _ => cases leased

theorem Turns.engine_eq {after : System} {asks : List Asked} {e : Engine} (turns : s.Turns after asks)
    (heard : ∀ other, s.engine.Hears s.now s.names asks other → other = e) :
    after.engine.tasks = e.tasks ∧ after.engine.available = e.available := by
  obtain ⟨_, ⟨other, hears, engine⟩, _⟩ := turns
  obtain rfl := heard other hears
  rcases engine with same | ⟨job, same⟩ <;> rw [same] <;> exact ⟨rfl, rfl⟩

/-- Where the calendar has room for a lock, it has an end. -/
theorem accepts_lease {registration : Registration}
    (accepted : (deadline s.now (registration.effectiveLock s.settings.lockTimeout)).isOk = true) :
    ∃ expiry, deadline s.now (s.leaseRequest registration).lock = .ok expiry := by
  cases ends : deadline s.now (registration.effectiveLock s.settings.lockTimeout) with
  | ok expiry => exact ⟨expiry, ends⟩
  | error reason =>
    rw [ends] at accepted
    cases accepted

/-- What becomes of the open tasks in calm: a lease for enough tasks is made, or nothing. -/
theorem Calm.engine (calm : s.Calm occurrence) :
    (s.leasing? occurrence = none ∧ s.grants occurrence = [] ∧
      (s.happen occurrence).engine.tasks = s.engine.tasks ∧
        (s.happen occurrence).engine.available = s.engine.available) ∨
      ∃ registration expiry, s.leasing? occurrence = some registration ∧
        s.grants occurrence = (s.leaseAsk registration).leased ∧
        deadline s.now (s.leaseRequest registration).lock = .ok expiry ∧
        (s.happen occurrence).engine.tasks = (s.engine.lease s.now (s.leaseRequest registration)).engine.tasks ∧
          (s.happen occurrence).engine.available =
            (s.engine.lease s.now (s.leaseRequest registration)).engine.available := by
  cases occurrence with
  | notice event =>
    obtain ⟨_, answers⟩ := s.answers_react event
    have engine : (s.react event).engine = s.engine := answers.defers.engine
    exact .inl ⟨rfl, rfl, congrArg Engine.tasks engine, congrArg Engine.available engine⟩
  | move move =>
    have turns := s.turns_step move
    rcases calm.asks with ⟨unleased, silent⟩ | ⟨registration, leases, asks⟩
    · rw [silent] at turns
      have grants : s.grants (.move move) = [] := by
        simp only [grants, leasing?, unleased, Option.elim_none]
      exact .inl ⟨unleased, grants, turns.engine_eq fun _ hears => hears⟩
    · rw [asks] at turns
      have grants : s.grants (.move move) = (s.leaseAsk registration).leased := by
        simp only [grants, leasing?, leases, Option.elim_some]
      obtain ⟨expiry, ends⟩ := accepts_lease (calm.2.2.2 registration leases)
      exact .inr ⟨registration, expiry, leases, grants, ends, turns.engine_eq fun _ hears => hears.2⟩

theorem Steady.happen (steady : s.Steady) (calm : s.Calm occurrence) : (s.happen occurrence).Steady where
  apart := (s.names_happen occurrence).symm ▸ steady.apart
  orderly := orderly_happen steady.apart steady.orderly occurrence
  numbered := numbered_happen steady.numbered occurrence
  available := by
    rcases calm.engine with ⟨_, _, _, available⟩ | ⟨registration, expiry, _, _, accepted, _, available⟩
    · exact available.trans steady.available
    · rw [available, Engine.lease_eq steady.available accepted]
      exact steady.available
  few := by
    rcases calm.engine with ⟨_, _, tasks, _⟩ | ⟨registration, expiry, _, _, accepted, tasks, _⟩
    · rw [tasks]
      exact steady.few
    · rw [tasks, Engine.lease_eq steady.available accepted]
      exact (List.length_map _).trans_le steady.few

/-- What an occurrence makes of an open task: it is left alone, which the lease that is made, if one is, shows not to
fit, or it is handed out. -/
inductive Meets (s : System) (occurrence : Occurrence) (record : TaskRecord) : Prop
  | spared (kept : record ∈ (s.happen occurrence).engine.tasks)
      (apart : ∀ lease ∈ s.grants occurrence, lease.id ≠ record.task.id)
      (unfit : ∀ registration ∈ s.leasing? occurrence,
        record.isLeasable (s.leaseRequest registration) s.now = false)
  | granted {lease : LeasedTask} (member : lease ∈ s.grants occurrence) (id : lease.id = record.task.id)
      (locked : record.lock s.settings.workerId lease.lockExpiry ∈ (s.happen occurrence).engine.tasks)
      (free : record.task.FreeAt s.now)

theorem Steady.meets (steady : s.Steady) (calm : s.Calm occurrence) (member : record ∈ s.engine.tasks) :
    s.Meets occurrence record := by
  rcases calm.engine with ⟨unleased, grants, tasks, _⟩ | ⟨registration, expiry, leases, grants, accepted, tasks, _⟩
  · refine .spared (tasks ▸ member) (by simp [grants]) fun registration same => ?_
    rw [unleased] at same
    cases same
  · obtain ⟨leased, result, fitting, sparing⟩ := Engine.lease_meets (s.leaseRequest registration)
      steady.orderly.sound steady.available accepted steady.few member
    have answered : (s.ask (.lease (s.leaseRequest registration))).1 = .ok leased := result
    have grants : s.grants occurrence = leased := by
      rw [grants, leaseAsk, answered]
      rfl
    cases fits : record.isLeasable (s.leaseRequest registration) s.now with
    | true =>
      obtain ⟨locked, lease, among, id, until'⟩ := fitting fits
      obtain ⟨_, _, _, free⟩ := TaskRecord.isLeasable_iff.mp fits
      refine .granted (grants ▸ among) id ?_ fun ends same => ?_
      · rw [tasks, until']
        exact locked
      · simpa [same] using free
    | false =>
      obtain ⟨kept, apart⟩ := sparing fits
      refine .spared (tasks ▸ kept) (grants ▸ apart) fun other same => ?_
      obtain rfl := Option.some.inj (leases.symm.trans same)
      exact fits

/-- What is handed out was open, and is locked until its lease ends. -/
theorem Steady.granted (steady : s.Steady) (calm : s.Calm occurrence) {lease : LeasedTask}
    (member : lease ∈ s.grants occurrence) : ∃ locked ∈ (s.happen occurrence).engine.tasks,
      lease.Holds locked.task ∧ locked.task.worker = some s.settings.workerId := by
  rcases calm.engine with ⟨_, grants, _⟩ | ⟨registration, expiry, _, grants, accepted, _⟩
  · rw [grants] at member
    cases member
  · have heard : (s.leaseAsk registration).result = (s.engine.step s.now (s.names.next s.engine)
        (s.leaseAsk registration).operation).result := rfl
    have ends {lease : LeasedTask} (member : lease ∈ s.grants occurrence) : lease.lockExpiry = expiry := by
      rw [grants] at member
      obtain ⟨request, asked, _, _, _, ends, _⟩ := Engine.leased_from heard member
      obtain rfl := Option.some.inj asked
      exact Except.ok.inj (ends.symm.trans accepted)
    obtain ⟨_, _, record, atRecord, _, _, given⟩ := Engine.leased_from heard (grants ▸ member)
    have id : lease.id = record.task.id := congrArg LeasedTask.id given
    cases steady.meets calm atRecord with
    | spared kept apart => exact absurd id (apart lease member)
    | @granted other among sameId locked =>
      refine ⟨_, locked, ⟨id, ?_⟩, rfl⟩
      rw [ends member, ← ends among]
      rfl

theorem Steady.grants_nodup (steady : s.Steady) (calm : s.Calm occurrence) :
    ((s.grants occurrence).map LeasedTask.id).Nodup := by
  rcases calm.engine with ⟨_, grants, _⟩ | ⟨registration, _, _, grants, _⟩
  · rw [grants]
    exact .nil
  · rw [grants]
    have heard : (s.leaseAsk registration).result = (s.engine.step s.now (s.names.next s.engine)
        (s.leaseAsk registration).operation).result := rfl
    exact steady.orderly.leased_nodup heard

theorem now_happen (calm : s.Calm occurrence) : s.now ≤ (s.happen occurrence).now := by
  cases occurrence with
  | move move => exact calm.1
  | notice event =>
    obtain ⟨_, answers⟩ := s.answers_react event
    have now : (s.react event).now = s.now := answers.defers.now
    exact now ▸ Instant.le_refl _

theorem freeAt_happen {task : ExternalTask} (free : task.FreeAt s.now) (calm : s.Calm occurrence) :
    task.FreeAt (s.happen occurrence).now :=
  fun expiry locked => Instant.le_trans (free expiry locked) (now_happen calm)

theorem now_past (calmly : s.Calmly rest) : s.now ≤ (s.past rest).now := by
  induction rest generalizing s with
  | nil => exact Instant.le_refl _
  | cons occurrence rest ih => exact Instant.le_trans (now_happen calmly.1) (ih calmly.2)

/-- While its lock lasts a task stays as it is, and is not handed out. -/
theorem Steady.stays_locked (steady : s.Steady) (calmly : s.Calmly rest) (member : record ∈ s.engine.tasks)
    {expiry : Instant} (locked : record.task.lockExpiry = some expiry) (lasts : (s.past rest).now < expiry) :
    record ∈ (s.past rest).engine.tasks ∧ ∀ lease ∈ s.along grants rest, lease.id ≠ record.task.id := by
  induction rest generalizing s with
  | nil => exact ⟨member, fun lease among => by cases among⟩
  | cons occurrence rest ih =>
    cases steady.meets calmly.1 member with
    | spared kept apart =>
      obtain ⟨last, later⟩ := ih (steady.happen calmly.1) calmly.2 kept lasts
      refine ⟨last, fun lease among => ?_⟩
      exact (List.mem_append.mp among).elim (apart lease) (later lease)
    | granted _ _ _ free =>
      have lapsed := Instant.le_trans (free expiry locked) (now_past calmly)
      exact absurd lasts (Instant.not_lt.mpr lapsed)

/-- No task is handed out twice while no lease expires. -/
theorem Steady.along_nodup (steady : s.Steady) (calmly : s.Calmly rest)
    (lasting : ∀ lease ∈ s.along grants rest, (s.past rest).now < lease.lockExpiry) :
    ((s.along grants rest).map LeasedTask.id).Nodup := by
  induction rest generalizing s with
  | nil => exact .nil
  | cons occurrence rest ih =>
    have later := ih (steady.happen calmly.1) calmly.2 fun lease among => lasting lease (List.mem_append_right _ among)
    rw [along, List.map_append]
    refine List.nodup_append.mpr ⟨steady.grants_nodup calmly.1, later, ?_⟩
    rintro _ first _ second rfl
    obtain ⟨lease, granted, rfl⟩ := List.mem_map.mp first
    obtain ⟨again, regranted, id⟩ := List.mem_map.mp second
    obtain ⟨record, member, ⟨sameId, locked⟩, _⟩ := steady.granted calmly.1 granted
    have stays := (steady.happen calmly.1).stays_locked calmly.2 member locked
      (lasting lease (List.mem_append_left _ granted))
    exact stays.2 again regranted (id.trans sameId)

/-- A leased task is on its way to its processing, or this has begun: none is lost, and none goes twice. -/
theorem handed_happen (numbered : s.host.Numbered) (occurrence : Occurrence) :
    ((s.happen occurrence).handed ++ s.begins occurrence).Perm (s.handed ++ s.grants occurrence) := by
  cases occurrence with
  | move move => exact handed_step numbered move
  | notice event =>
    obtain ⟨leases, answers⟩ := s.answers_react event
    have toDo := (answers.defers.adds.toDo numbered).flatMap_right Work.leases
    have unleased : (leases.map Work.deferLease).flatMap Work.leases = [] := by
      simp [List.flatMap_map, Work.leases]
    rw [List.flatMap_append, unleased] at toDo
    simp only [begins, grants, leasing?, Option.elim_none, List.append_nil] at toDo ⊢
    exact toDo

theorem handed_past (numbered : s.host.Numbered) (rest : List Occurrence) :
    ((s.past rest).handed ++ s.along begins rest).Perm (s.handed ++ s.along grants rest) := by
  induction rest generalizing s with
  | nil => exact .refl _
  | cons occurrence rest ih =>
    have later := Multiset.coe_eq_coe.mpr (ih (numbered_happen numbered occurrence))
    have first := Multiset.coe_eq_coe.mpr (handed_happen numbered occurrence)
    simp only [← Multiset.coe_add] at later first
    refine Multiset.coe_eq_coe.mp ?_
    simp only [along, ← Multiset.coe_add]
    change (((s.happen occurrence).past rest).handed + (s.begins occurrence + _) : Multiset LeasedTask) = _
    rw [add_left_comm, later, ← add_assoc, add_comm (s.begins occurrence : Multiset LeasedTask), first, add_assoc]

/-- Works that will lease get fewer only by leases that are made. -/
theorem leasesToDo_step (numbered : s.host.Numbered) (move : Move) (kind : Registration → Bool) :
    s.leasesToDo kind ≤ (s.step move).2.leasesToDo kind + (s.leasesFor? move).toList.countP kind := by
  obtain ⟨works, passes⟩ := passes_step numbered move
  let waits (work : Work) : Bool := work.toLease?.any kind
  have toDo := passes.toDo.countP_eq waits
  simp only [List.countP_append] at toDo
  have taken : (s.taken? move).toList.countP waits ≤ ((s.taken? move).toList.flatMap Work.follow).countP waits +
      (s.leasesFor? move).toList.countP kind := by
    cases taken : s.taken? move with
    | none => exact Nat.zero_le _
    | some work =>
      rw [leasesFor?_taken taken, Option.toList_some, List.flatMap_singleton]
      cases work <;> simp [waits, Work.follow, Work.toLease?, Work.leasesFor?, List.countP_singleton]
  change s.toDo.countP waits ≤ (s.step move).2.toDo.countP waits + _
  omega

/-- Works that will lease for a registration get fewer only by a lease for it. -/
theorem pending_happen (numbered : s.host.Numbered) (occurrence : Occurrence) (registration : Registration) :
    s.pending registration ≤ (s.happen occurrence).pending registration +
      (s.leasing? occurrence).toList.count registration := by
  cases occurrence with
  | notice event =>
    obtain ⟨leases, answers⟩ := s.answers_react event
    have toDo := (answers.defers.adds.toDo numbered).countP_eq fun work => work.toLease? = some registration
    rw [List.countP_append] at toDo
    exact (Nat.le_add_right _ _).trans (toDo.symm.le.trans (Nat.le_add_right _ _))
  | move move =>
    have counted (t : System) : t.pending registration = t.leasesToDo (· == registration) :=
      List.countP_congr fun work _ => by cases work.toLease? <;> simp
    rw [counted, counted]
    exact leasesToDo_step numbered move (· == registration)

/-- What a registration serves and no lock keeps is handed out, if more leases for the registration are pending before
than after: the lease that makes the difference finds the task, if an earlier one has not. -/
theorem Steady.handed_out (steady : s.Steady) (calmly : s.Calmly rest) (member : record ∈ s.engine.tasks)
    {registration : Registration} (serves : registration.Serves record.task) (free : record.task.FreeAt s.now)
    (left : record.task.retries ≠ some 0)
    (fewer : (s.past rest).pending registration < s.pending registration) :
    ∃ early leasing late, rest = early ++ leasing :: late ∧
      ∃ lease ∈ (s.past early).grants leasing, lease.id = record.task.id := by
  induction rest generalizing s with
  | nil => exact absurd fewer (Nat.lt_irrefl _)
  | cons occurrence rest ih =>
    have meets := steady.meets calmly.1 member
    cases meets with
    | granted among id => exact ⟨[], occurrence, rest, rfl, _, among, id⟩
    | spared kept _ unfit =>
      -- the task fits, so the lease is none for the registration
      have fits := s.leasable serves free left
      have unleased : (s.leasing? occurrence).toList.count registration = 0 := by
        refine List.count_eq_zero.mpr fun leases => ?_
        rw [unfit registration (Option.mem_toList.mp leases)] at fits
        cases fits
      have pending := pending_happen steady.numbered occurrence registration
      change ((s.happen occurrence).past rest).pending registration < _ at fewer
      obtain ⟨early, leasing, late, rfl, granted⟩ := ih (steady.happen calmly.1) calmly.2 kept
        (freeAt_happen free calmly.1) (by omega)
      exact ⟨occurrence :: early, leasing, late, rfl, granted⟩

theorem Calmly.append {before after : List Occurrence} (calmly : s.Calmly (before ++ after)) :
    s.Calmly before ∧ (s.past before).Calmly after := by
  induction before generalizing s with
  | nil => exact ⟨trivial, calmly⟩
  | cons occurrence before ih =>
    obtain ⟨first, later⟩ := ih calmly.2
    exact ⟨⟨calmly.1, first⟩, later⟩

theorem Steady.past (steady : s.Steady) (calmly : s.Calmly rest) : (s.past rest).Steady := by
  induction rest generalizing s with
  | nil => exact steady
  | cons occurrence rest ih => exact ih (steady.happen calmly.1) calmly.2

theorem past_append (s : System) (before after : List Occurrence) :
    s.past (before ++ after) = (s.past before).past after := List.foldl_append

theorem along_append (tell : System → Occurrence → List LeasedTask) (s : System) (before after : List Occurrence) :
    s.along tell (before ++ after) = s.along tell before ++ (s.past before).along tell after := by
  induction before generalizing s with
  | nil => rfl
  | cons occurrence before ih =>
    simp only [List.cons_append, along, ih, List.append_assoc]
    rfl

/-- A task that was handed out is locked by the worker that it was leased for, until the lease ends. -/
theorem Steady.lasts {early late : List Occurrence} {leasing : Occurrence} (steady : s.Steady)
    (calmly : s.Calmly (early ++ leasing :: late)) {lease : LeasedTask}
    (member : lease ∈ (s.past early).grants leasing)
    (lasting : (s.past (early ++ leasing :: late)).now < lease.lockExpiry) :
    ∃ locked ∈ (s.past (early ++ leasing :: late)).engine.tasks, lease.Holds locked.task ∧
      locked.task.worker = some (s.past early).settings.workerId := by
  obtain ⟨calmEarly, calmLate⟩ := calmly.append
  have steady := steady.past calmEarly
  obtain ⟨locked, atLocked, holds, worker⟩ := steady.granted calmLate.1 member
  rw [past_append] at lasting ⊢
  have stays := (steady.happen calmLate.1).stays_locked calmLate.2 atLocked holds.2 lasting
  exact ⟨locked, stays.1, holds, worker⟩

/-- Whatever has happened to a dispatcher since it was created. -/
theorem ordered_past (names : Naming) (now : Instant) (settings : Settings) (gated : Bool) (distinct : names.Distinct)
    (occurrences : List Occurrence) :
    let s := (create names now settings gated).past occurrences
    s.names.Distinct ∧ s.engine.Orderly s.names ∧ s.host.Numbered := by
  induction occurrences using List.reverseRecOn with
  | nil => exact ⟨distinct, Engine.orderly_empty names, Host.numbered_idle _⟩
  | append_singleton before occurrence ih =>
    obtain ⟨apart, orderly, numbered⟩ := ih
    rw [past_append]
    exact ⟨(names_happen _ occurrence).symm ▸ apart, orderly_happen apart orderly occurrence,
      numbered_happen numbered occurrence⟩

/-- A sweep leaves a lease to be made for every registration. -/
theorem pending_sweep (numbered : s.host.Numbered) {registration : Registration}
    (registered : registration ∈ s.registry.entries) :
    s.pending registration < (s.happen (.move .sweep)).pending registration := by
  let waits (work : Work) : Bool := work.toLease? = some registration
  have toDo := (s.adds_sweep.toDo numbered).countP_eq waits
  rw [List.countP_append] at toDo
  have added : 0 < (s.registry.entries.map Work.deferLease).countP waits :=
    List.countP_pos_iff.mpr ⟨_, List.mem_map_of_mem registered, by simp [waits, Work.toLease?]⟩
  change s.toDo.countP waits < s.sweep.2.toDo.countP waits
  omega

/-- When no handing out is left to be done, all leased tasks on their way are to be processed each by itself. -/
theorem handed_begun (handedOut : ∀ tasks, .handOut tasks ∉ s.toDo) : s.handed = s.toDo.flatMap Work.begun := by
  refine List.flatMap_congr fun work member => ?_
  cases work with
  | handOut tasks => exact absurd member (handedOut tasks)
  | _ => rfl

/-- Leasing is complete, and hands out no task twice. From any state on, let the dispatcher be told of activities, be
swept and called to lease, once swept at least, while the engine is available and no one else calls it, and let the
leases that this defers have been made, under locks that have not run out. Then no task was handed out twice; each
lease that was given goes to one attempt, and once it is handed out this attempt is an action of the host; and every
task that was free and registered for when the sweep was called has been given in one of the leases, and is locked by
the worker that the lease was made for. -/
theorem run_sweeps (names : Naming) (now : Instant) (settings : Settings) (gated : Bool) (distinct : names.Distinct)
    (earlier before after : List Occurrence) :
    let s := (create names now settings gated).past earlier
    let phase := before ++ .move .sweep :: after
    let t := s.past before
    let u := s.past phase
    s.engine.available = true → s.engine.tasks.length ≤ unboundedLease → s.Calmly phase →
      (∀ lease ∈ s.along grants phase, u.now < lease.lockExpiry) →
        (∀ registration, u.pending registration ≤ t.pending registration) →
          ((s.along grants phase).map LeasedTask.id).Nodup ∧
          (u.handed ++ s.along begins phase).Perm (s.handed ++ s.along grants phase) ∧
          ((∀ tasks, .handOut tasks ∉ u.toDo) →
            (u.toDo.flatMap Work.begun ++ s.along begins phase).Perm (s.handed ++ s.along grants phase)) ∧
          ∀ record ∈ t.engine.tasks, record.task.FreeAt t.now → record.task.retries ≠ some 0 →
            ∀ registration ∈ t.registry.entries, registration.Serves record.task →
              ∃ early leasing late, phase = early ++ leasing :: late ∧
                ∃ lease ∈ (s.past early).grants leasing, lease.id = record.task.id ∧
                  ∃ locked ∈ u.engine.tasks, lease.Holds locked.task ∧
                    locked.task.worker = some (s.past early).settings.workerId := by
  intro s phase t u available few calmly lasting done
  obtain ⟨apart, orderly, numbered⟩ := ordered_past names now settings gated distinct earlier
  have steady : s.Steady := ⟨apart, orderly, numbered, available, few⟩
  have account := handed_past numbered phase
  refine ⟨steady.along_nodup calmly lasting, account, fun handedOut => ?_, ?_⟩
  · rw [← handed_begun handedOut]
    exact account
  · intro record member free left registration registered serves
    obtain ⟨calmBefore, calmSwept⟩ := calmly.append
    have steadyThen : t.Steady := steady.past calmBefore
    have split : u = t.past (.move .sweep :: after) := past_append s before _
    -- the sweep changes nothing for the task, and leaves one more lease to be made
    have swept : record ∈ (t.happen (.move .sweep)).engine.tasks := by
      cases steadyThen.meets calmSwept.1 member with
      | spared kept => exact kept
      | granted among => cases among
    have fewer : ((t.happen (.move .sweep)).past after).pending registration <
        (t.happen (.move .sweep)).pending registration := by
      have before := pending_sweep steadyThen.numbered registered
      have after := done registration
      rw [split] at after
      exact Nat.lt_of_le_of_lt after before
    have free := freeAt_happen free calmSwept.1
    obtain ⟨early, leasing, late, rfl, lease, among, id⟩ :=
      (steadyThen.happen calmSwept.1).handed_out calmSwept.2 swept serves free left fewer
    have whole : phase = (before ++ .move .sweep :: early) ++ leasing :: late := by simp [phase]
    have reached : s.past (before ++ .move .sweep :: early) = (t.happen (.move .sweep)).past early :=
      past_append s before _
    rw [← reached] at among
    have granted : lease ∈ s.along grants phase := by
      rw [whole, along_append]
      exact List.mem_append_right _ (List.mem_append_left _ among)
    refine ⟨before ++ .move .sweep :: early, leasing, late, whole, lease, among, id, ?_⟩
    have lasts := lasting lease granted
    simp only [u, whole] at lasts calmly ⊢
    exact steady.lasts calmly among lasts

/-- A dispatcher that no one tells of the one open task. -/
def unheard : List Occurrence :=
  [.move (.register "order" "money" none .all .sync),
    .move (.operate .done (.deploy ⟨"order", [⟨"pay", .serviceTask, some "money", none⟩]⟩)),
    .move (.operate .name (.start "order" none .empty))]

/-- It is told late, while a sweep and a call of the dispatcher lease for the same task. -/
def heardOften : List Occurrence :=
  [.notice ⟨"order", "pay", "i"⟩, .move (.start 0), .move (.start 1), .move (.dispatch ⟨"order", "money"⟩),
    .move (.start 2), .move (.start 3), .move (.start 4)]

/-- Three leases find the task, and one of them gets it. -/
theorem run_sweeps_once :
    let s := (create unaryNames .epoch (Settings.defaults "w") false).past unheard
    let phase := .move .sweep :: heardOften
    (s.along grants phase).map LeasedTask.id = ["t"] ∧
      ((s.past phase).toDo.flatMap Work.begun ++ s.along begins phase).Perm (s.handed ++ s.along grants phase) ∧
        ∃ locked ∈ (s.past phase).engine.tasks, locked.task.id = "t" ∧ locked.task.worker = some "w" := by
  have calmly : ((create unaryNames .epoch (Settings.defaults "w") false).past unheard).Calmly
    (.move .sweep :: heardOften) := by decide +kernel
  have toDo : (((create unaryNames .epoch (Settings.defaults "w") false).past unheard).past
    (.move .sweep :: heardOften)).toDo = [.process leasedTask] := rfl
  have lasting : ∀ lease ∈ ((create unaryNames .epoch (Settings.defaults "w") false).past unheard).along grants
      (.move .sweep :: heardOften), (((create unaryNames .epoch (Settings.defaults "w") false).past unheard).past
        (.move .sweep :: heardOften)).now < lease.lockExpiry := by decide +kernel
  obtain ⟨_, _, handedOut, swept⟩ := run_sweeps unaryNames .epoch (Settings.defaults "w") false unaryNames_distinct
    unheard [] heardOften rfl (by decide) calmly lasting fun registration => by
      have none' : (((create unaryNames .epoch (Settings.defaults "w") false).past unheard).past
          (.move .sweep :: heardOften)).pending registration = 0 := by
        rw [pending, toDo]
        rfl
      exact none'.le.trans (Nat.zero_le _)
  refine ⟨rfl, handedOut fun tasks member => ?_, ?_⟩
  · rw [List.nil_append, toDo] at member
    cases List.mem_singleton.mp member
  · obtain ⟨_, _, _, _, lease, _, id, locked, atLocked, holds, _⟩ := swept _ (List.mem_singleton_self _)
      (fun expiry locked => by cases locked) nofun _ (List.mem_singleton_self _) rfl
    refine ⟨locked, atLocked, holds.1.symm.trans id, ?_⟩
    obtain rfl := List.mem_singleton.mp atLocked
    rfl

end System

end TaskLeasing
