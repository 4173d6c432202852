import TaskLeasing.Proofs.System.Trying

namespace TaskLeasing

namespace System

/-- The attempt at a task that a move ends, with the retryable failure that it ends in, if it does. -/
def ended? (s : System) (task : String) : Move → Option (LeasedTask × Option RetryableFailure)
  | .answer number kind attempt => (s.calls.find? fun call => call.number = number).bind fun call =>
    (call.subject.attempt?.filter fun lease => lease.id = task ∧ call.subject.kind = kind).map fun lease =>
      (lease, attempt.retryable?)
  | _ => none

/-- The failure of an attempt at a task that a move finds. -/
def failed? (s : System) (task : String) (move : Move) : Option AttemptEvent :=
  (s.ended? task move).bind fun ended => ended.2.map (ended.1.failed s.now s.settings.retryDelay)

/-- What a move adds to the attempts at a task. -/
def attemptsIn (s : System) (task : String) (move : Move) : List AttemptEvent :=
  begins task s.now (s.step move).1.call? ++ (s.failed? task move).toList

/-- The attempts at a task in the course of moves, as they begin and fail. -/
def attemptsOf (s : System) (task : String) : List Move → List AttemptEvent
  | [] => []
  | move :: rest => s.attemptsIn task move ++ (s.step move).2.attemptsOf task rest

/-- Whether a move leaves a task to the dispatcher, which keeps its name: others report no failure of it that
leaves retries, and have it processed under leases only that they were given in the dispatcher's name, each once.
An attempt at the task may end in any way if it is to complete it, and else only so that it can be retried, with
waits that end within the calendar. -/
def Leaves (s : System) (task : String) (held next : List LeasedTask) : Move → Prop
  | .operate kind operation => operation.Spares task ∧
    next = held ++ Asked.granted s.settings.workerId task ⟨kind, operation, (s.operate operation).1⟩
  | .process lease => if lease.id = task then held.Perm (lease :: next) else next = held
  | .answer number kind attempt => next = held ∧
    ∀ ended, s.ended? task (.answer number kind attempt) = some ended → match ended.2 with
      | none => kind = .process
      | some failure => ∃ expiry, deadline s.now (ended.1.decision s.settings.retryDelay failure).delay = .ok expiry
  | .setWorkerId worker => next = held ∧ worker = s.settings.workerId
  | .passTo time => next = held ∧ s.now ≤ time
  | _ => next = held

/-- Whether each of the moves leaves a task to the dispatcher, and no attempt at it outlasts its lease. -/
def Tries (task : String) : System → List LeasedTask → List Move → Prop
  | _, _, [] => True
  | s, held, move :: rest => ∃ next, s.Leaves task held next move ∧ (s.step move).2.Prompt task ∧
    Tries task (s.step move).2 next rest

instance decidablePrompt (s : System) (task : String) : Decidable (s.Prompt task) :=
  inferInstanceAs (Decidable (∀ lease ∈ s.attempted, lease.id = task → s.now < lease.lockExpiry))

variable {s after : System} {task : String} {held : List LeasedTask} {events : List AttemptEvent} {lease : LeasedTask}

section Pending

variable {number : Nat} {call : ProcessorCall}
  (pending : s.calls.find? (fun other => other.number = number) = some call)
include pending

theorem ended?_eq (attempted : call.subject.attempt? = some lease) {kind : CallKind}
    (asked : call.subject.kind = kind) (attempt : Attempt kind.Value) :
    s.ended? task (.answer number kind attempt) =
      if lease.id = task then some (lease, attempt.retryable?) else none := by
  by_cases id : lease.id = task <;> simp [ended?, pending, attempted, asked, id]

/-- An answer that the call does not ask for ends no attempt, nor does the answer to a response. -/
theorem ended?_eq_none {kind : CallKind} (unasked : call.subject.attempt? = none ∨ call.subject.kind ≠ kind)
    (attempt : Attempt kind.Value) : s.ended? task (.answer number kind attempt) = none := by
  rcases unasked with none' | other
  · simp [ended?, pending, none']
  · cases attempted : call.subject.attempt? <;> simp [ended?, pending, attempted, other]

end Pending

namespace Rationed

/-- However an attempt ends, if it is one at the task it can be retried or is the last. -/
theorem settled (rationed : s.Rationed task held events) (prompt : s.Prompt task) {number : Nat} {call : ProcessorCall}
    (pending : s.calls.find? (fun other => other.number = number) = some call)
    (attempt : call.subject.attempt? = some lease) {kind : CallKind} {failure? : Option RetryableFailure}
    (leaves : lease.id = task → match failure? with
      | none => kind = .process
      | some failure => ∃ expiry, deadline s.now (lease.decision s.settings.retryDelay failure).delay = .ok expiry)
    (ends : (s.dropCall number).Ends kind call.worker lease failure? after) :
    after.Rationed task held (events ++
      (if lease.id = task then failure?.map (lease.failed s.now s.settings.retryDelay) else none).toList) := by
  by_cases id : lease.id = task
  · rw [if_pos id]
    cases failure? with
    | some failure => exact rationed.failed prompt pending attempt id ends (leaves id)
    | none =>
      obtain rfl : kind = .process := leaves id
      rw [Option.map_none, Option.toList_none, List.append_nil]
      exact rationed.finished prompt pending attempt id ends
  · have dropped := rationed.dropCall pending fun other attempt' => by
      rw [attempt, Option.some.injEq] at attempt'
      exact attempt' ▸ id
    rw [if_neg id, Option.toList_none, List.append_nil]
    cases failure? with
    | some failure =>
      refine dropped.spared ends fun ask member => ?_
      rw [List.mem_singleton.mp member]
      exact ⟨fun same => absurd same id, rfl⟩
    | none =>
      cases kind with
      | process => exact dropped.tames (Finishes.tames ends)
      | _ => exact dropped.tames ends

theorem endCall (rationed : s.Rationed task held events) (prompt : s.Prompt task) {number : Nat} {kind : CallKind}
    {attempt : Attempt kind.Value} (leaves : s.Leaves task held held (.answer number kind attempt)) :
    (s.endCall number kind attempt).2.Rationed task held
      (events ++ (s.failed? task (.answer number kind attempt)).toList) := by
  cases pending : s.calls.find? fun call => call.number = number with
  | none => simpa only [System.endCall, failed?, ended?, pending, Option.bind_none, Option.toList_none,
      List.append_nil] using rationed
  | some call =>
    have untouched (unasked : call.subject.attempt? = none ∨ call.subject.kind ≠ kind)
        (same : (s.endCall number kind attempt).2 = s) : (s.endCall number kind attempt).2.Rationed task held
          (events ++ (s.failed? task (.answer number kind attempt)).toList) := by
      rw [same, failed?, ended?_eq_none pending unasked, Option.bind_none, Option.toList_none, List.append_nil]
      exact rationed
    -- what ends an attempt is found among the failures if it is one at the task
    have settled {lease : LeasedTask} {after : System} (attempted : call.subject.attempt? = some lease)
        (asked : call.subject.kind = kind)
        (ends : (s.dropCall number).Ends kind call.worker lease attempt.retryable? after) :
        (after.finishCall call).Rationed task held
          (events ++ (s.failed? task (.answer number kind attempt)).toList) := by
      have found : s.ended? task (.answer number kind attempt) = _ := ended?_eq pending attempted asked attempt
      have same : s.failed? task (.answer number kind attempt) =
          if lease.id = task then attempt.retryable?.map (lease.failed s.now s.settings.retryDelay) else none := by
        rw [failed?, found]
        split <;> rfl
      rw [same]
      have settled := rationed.settled prompt pending attempted (fun id => leaves.2 _ (by rw [found, if_pos id])) ends
      exact settled.finishCall call
    cases subject : call.subject with
    | respond answered input =>
      have attempted : call.subject.attempt? = none := by rw [subject]; rfl
      cases kind with
      | respond =>
        have dropped := rationed.dropCall pending (by simp [attempted])
        rw [failed?, ended?_eq_none pending (.inl attempted), Option.bind_none, Option.toList_none, List.append_nil]
        simp only [System.endCall, pending, subject]
        exact (dropped.tames (tames_endRespond _ call answered attempt)).finishCall call
      | _ => exact untouched (.inl attempted) (by simp only [System.endCall, pending, subject])
    | process lease =>
      cases kind with
      | process =>
        rw [endCall_process pending subject attempt]
        exact settled (by rw [subject]; rfl) (by rw [subject]; rfl) (ends_endProcess _ call lease attempt)
      | _ =>
        refine untouched (.inr ?_) (by simp only [System.endCall, pending, subject])
        simp [subject, CallSubject.kind]
    | request lease =>
      cases kind with
      | request =>
        rw [endCall_request pending subject attempt]
        exact settled (by rw [subject]; rfl) (by rw [subject]; rfl) (ends_endRequest _ call lease attempt)
      | _ =>
        refine untouched (.inr ?_) (by simp only [System.endCall, pending, subject])
        simp [subject, CallSubject.kind]

/-- A lease that is held elsewhere is at hand when it is handed in. -/
theorem handIn (rationed : s.Rationed task held events) {next : List LeasedTask}
    (leaves : s.Leaves task held next (.process lease)) : s.Rationed task (lease :: next) events := by
  refine rationed.turn rationed.toInOrder rfl rfl rfl fun _ before => before.of_perm [] ?_
  rw [List.append_nil]
  have leaves : if lease.id = task then held.Perm (lease :: next) else next = held := leaves
  split at leaves
  · next id => exact (leaves.append_right _).filter _
  · next other =>
    rw [leaves, underway, underway, List.cons_append, List.filter_cons_of_neg (by simpa using other)]

/-- A move that leaves the task to the dispatcher adds to the attempts as they may go on. -/
theorem step (rationed : s.Rationed task held events) (prompt : s.Prompt task) {move : Move} {next : List LeasedTask}
    (leaves : s.Leaves task held next move) (after : (s.step move).2.Prompt task) :
    (s.step move).2.Rationed task next (events ++ s.attemptsIn task move) := by
  have quiet (silent : s.attemptsIn task move = []) (stays : (s.step move).2.Rationed task next events) :
      (s.step move).2.Rationed task next (events ++ s.attemptsIn task move) := by
    rwa [silent, List.append_nil]
  -- only an answer ends attempts
  have begins (unfailed : s.failed? task move = none) (goes : (s.step move).2.Rationed task next
      (events ++ begins task s.now (s.step move).1.call?)) :
      (s.step move).2.Rationed task next (events ++ s.attemptsIn task move) := by
    rwa [attemptsIn, unfailed, Option.toList_none, List.append_nil]
  cases move with
  | operate kind operation =>
    obtain ⟨spares, rfl⟩ := leaves
    exact quiet rfl (rationed.operate spares)
  | process lease =>
    rw [step_process] at after begins
    rw [call?_process] at begins
    exact step_process s lease ▸ begins rfl ((rationed.handIn leaves).process none after)
  | answer number kind attempt =>
    obtain rfl : next = held := leaves.1
    rw [attemptsIn, show (s.step (.answer number kind attempt)).1.call? = none from s.call?_endCall number attempt]
    exact rationed.endCall prompt leaves
  | setWorkerId worker =>
    obtain ⟨rfl, same⟩ := leaves
    exact quiet rfl (rationed.of_settings same)
  | passTo time =>
    obtain ⟨rfl, onward⟩ := leaves
    exact quiet rfl (rationed.passTo onward)
  | respond id input =>
    obtain rfl : next = held := leaves
    rw [step_respond] at after begins
    rw [call?_respond] at begins
    exact step_respond s id input ▸ begins rfl (rationed.respond id input after)
  | start action =>
    obtain rfl : next = held := leaves
    exact begins rfl (rationed.start action after)
  | resume action =>
    obtain rfl : next = held := leaves
    exact begins rfl (rationed.resume action after)
  | setHandler type fails =>
    obtain rfl : next = held := leaves
    exact quiet rfl (rationed.silent { Does.refl s with })
  | attach =>
    obtain rfl : next = held := leaves
    exact quiet rfl (rationed.silent { Does.refl s with })
  | register definitionKey topic lockTimeout vars contract =>
    obtain rfl : next = held := leaves
    exact quiet rfl (rationed.register definitionKey topic lockTimeout vars contract)
  | sweep =>
    obtain rfl : next = held := leaves
    exact quiet rfl (rationed.silent s.does_sweep)
  | dispatch key =>
    obtain rfl : next = held := leaves
    exact quiet rfl (rationed.dispatch key)
  | fireWatchdog payload =>
    obtain rfl : next = held := leaves
    exact quiet rfl (rationed.tames (s.tames_fireWatchdog payload))
  | setLockTimeout timeout =>
    obtain rfl : next = held := leaves
    exact begins rfl (rationed.setLockTimeout timeout)
  | release =>
    obtain rfl : next = held := leaves
    exact quiet rfl (rationed.silent { Does.refl s with })
  | holdSweeper =>
    obtain rfl : next = held := leaves
    exact quiet rfl (rationed.silent { Does.refl s with })
  | dropSweeper =>
    obtain rfl : next = held := leaves
    exact quiet rfl (rationed.silent { Does.refl s with })
  | wake action =>
    obtain rfl : next = held := leaves
    exact begins rfl (rationed.wake action)
  | commit =>
    obtain rfl : next = held := leaves
    exact quiet rfl (rationed.silent s.does_commit)
  | runJob job =>
    obtain rfl : next = held := leaves
    exact quiet rfl (rationed.runJob job)

end Rationed

theorem rationed_create {names : Naming} (distinct : names.Distinct) (now : Instant) (settings : Settings)
    (gated : Bool) (task : String) : (System.create names now settings gated).Rationed task [] [] where
  apart := distinct
  numbered := Host.numbered_idle _
  distinct := .nil
  issued := by simp [System.create]
  own := by simp [System.create]
  rations := by
    have idle : (System.create names now settings gated).underway task [] = [] := by cases gated <;> rfl
    rw [idle]
    refine ⟨none, ⟨Engine.orderly_empty names, rfl, .inr ⟨rfl, rfl, rfl⟩, ?_, ?_, .nil, ?_⟩, .start⟩
    · simp [System.create, Engine.empty]
    · simp
    · simp

/-- The attempts at a task that is left to the dispatcher make a course. -/
theorem Rationed.run {moves : List Move} (rationed : s.Rationed task held events) (prompt : s.Prompt task)
    (tries : Tries task s held moves) :
    ∃ later, (s.run moves).Rationed task later (events ++ s.attemptsOf task moves) := by
  induction moves generalizing s held events with
  | nil => exact ⟨held, by rwa [attemptsOf, List.append_nil]⟩
  | cons move rest ih =>
    obtain ⟨next, leaves, after, tries⟩ := tries
    rw [attemptsOf, ← List.append_assoc]
    exact ih (rationed.step prompt leaves after) after tries

/-- The retries that a task's processor is called with are none at first, and then go down to one at the least,
whatever number of attempts each of its failures is worth. So it is called no more often than the first one is
worth, if not just once, and never before the waits that its failures asked for are over, to the millisecond. -/
theorem run_within_budget (names : Naming) (now : Instant) (settings : Settings) (gated : Bool) (moves : List Move)
    (task : String) (distinct : names.Distinct) (tries : Tries task (System.create names now settings gated) [] moves) :
    let events := (System.create names now settings gated).attemptsOf task moves
    (callsOf events = [] ∨ ∃ later : List UInt32, callsOf events = none :: later.map some ∧
      later.Pairwise (· > ·) ∧ ∀ retries ∈ later, 1 ≤ retries) ∧
    (callsOf events).length ≤ max 1 ((budgetsOf events).head?.elim 1 UInt32.toNat) ∧
    ∀ earlier time retries rest, events = earlier ++ .called time retries :: rest →
      ∀ failed budget decision, .failed failed budget decision ∈ earlier →
        ∃ expiry, deadline failed decision.delay = .ok expiry ∧ expiry ≤ time := by
  intro events
  have prompt : (System.create names now settings gated).Prompt task := by
    intro lease member
    cases member
  obtain ⟨_, rationed⟩ := (rationed_create distinct now settings gated task).run prompt tries
  obtain ⟨left, _, course⟩ := rationed.rations
  rw [List.nil_append] at course
  refine ⟨?decreasing, course.count_le, ?waited⟩
  case decreasing =>
    rcases course.shape with ⟨none', _⟩ | ⟨later, calls, decreasing, positive, _⟩
    · exact .inl none'
    · exact .inr ⟨later, calls, decreasing, positive⟩
  case waited =>
    intro earlier time retries rest parts failed budget decision member
    exact course.waits_over parts _ member

/-- A task that is tried under a lease given to others and fails in a way worth three attempts, and when the
dispatcher has leased it again five seconds later, in a way worth but one. -/
def twoAttempts : List Move :=
  [.register "order" "money" none .all .sync,
    .operate .done (.deploy ⟨"order", [⟨"pay", .serviceTask, some "money", none⟩]⟩),
    .operate .name (.start "order" none .empty),
    .operate .tasks (.lease ⟨1, "w", "money", .ofSeconds 60, .all, none⟩), .process leasedTask,
    .answer 1 .process (.failed (.retryable ⟨"busy", 3, [], none⟩)),
    .passTo ((Instant.epoch.plus? (.ofSeconds 5)).getD .last), .dispatch ⟨"order", "money"⟩, .start 1, .start 2,
    .answer 2 .process (.failed (.retryable ⟨"busy", 1, [], none⟩))]

/-- The second call has the two retries that the first failure left, and there is no third. -/
theorem run_within_budget_twice :
    let s := System.create unaryNames .epoch (Settings.defaults "w") false
    Tries "t" s [] twoAttempts ∧ callsOf (s.attemptsOf "t" twoAttempts) = [none, some 2] ∧
      budgetsOf (s.attemptsOf "t" twoAttempts) = [3, 1] ∧ (callsOf (s.attemptsOf "t" twoAttempts)).length ≤ 3 := by
  have tries : Tries "t" (System.create unaryNames .epoch (Settings.defaults "w") false) [] twoAttempts := by
    refine ⟨[], rfl, by decide, [], ⟨trivial, rfl⟩, by decide, [], ⟨trivial, rfl⟩, by decide,
      [leasedTask], ⟨trivial, rfl⟩, by decide, [], .refl [leasedTask], by decide, [], ⟨rfl, ?_⟩, by decide,
      [], ⟨rfl, by decide⟩, by decide, [], rfl, by decide, [], rfl, by decide, [], rfl, by decide,
      [], ⟨rfl, ?_⟩, by decide, trivial⟩
    · rintro _ ⟨⟩
      exact ⟨_, rfl⟩
    · rintro _ ⟨⟩
      exact ⟨_, rfl⟩
  have within := run_within_budget unaryNames .epoch (Settings.defaults "w") false twoAttempts "t"
    unaryNames_distinct tries
  exact ⟨tries, rfl, rfl, within.2.1⟩

end System

end TaskLeasing
