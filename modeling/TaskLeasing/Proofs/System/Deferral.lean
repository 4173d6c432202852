import TaskLeasing.System.Leasing
import TaskLeasing.Proofs.Host.Numbering

namespace TaskLeasing

/-- The work left to be run after commit, in order. -/
def System.deferred (s : System) : List Work :=
  match s.gate with
  | some held => held.map Prod.snd
  | none => s.host.queued.map HostAction.work

/-- Other work that the host can take up at any time. -/
def System.awaiting (s : System) : List Work :=
  (if s.gate.isSome then s.host.queued.map HostAction.work else []) ++
    (s.host.waiting.map HostAction.work ++ s.host.granted.map HostAction.work)

/-- The tasks that were handed out by a lease, if the entry tells of one. -/
def JournalEntry.leased (entry : JournalEntry) : List LeasedTask :=
  match entry.note with
  | .asked .tasks (.lease _) (.ok tasks) => tasks
  | _ => []

/-- The tasks that the dispatcher has leased so far. -/
def System.leased (s : System) : List LeasedTask := s.journal.flatMap JournalEntry.leased

/-- The dispatcher is held by its owner or by a sweeper, whatever work there is. -/
def System.Kept (s : System) : Prop := s.released = false ∨ 0 < s.sweepers

/-- Two states of a system that differ in the works of its host, in notes and in counts alone. -/
structure System.Stays (s after : System) : Prop where
  names : after.names = s.names
  now : after.now = s.now
  engine : after.engine = s.engine
  listening : after.listening = s.listening
  registry : after.registry = s.registry
  settings : after.settings = s.settings
  calls : after.calls = s.calls
  callCount : after.callCount = s.callCount
  kept_alive : s.Kept → after.Kept
  leased : after.leased = s.leased
  numbered : s.host.Numbered → after.host.Numbered

/-- All that happens is that works are deferred, and that notes are taken and numbers counted. -/
structure System.Defers (s after : System) (works : List Work) : Prop extends System.Stays s after where
  deferred : after.deferred = s.deferred ++ works
  awaiting : after.awaiting = s.awaiting
  delayed : after.host.delayed = s.host.delayed

namespace System

variable {s middle after : System} {works others : List Work}

theorem Stays.refl (s : System) : s.Stays s := ⟨rfl, rfl, rfl, rfl, rfl, rfl, rfl, rfl, id, rfl, id⟩

theorem Stays.trans (first : s.Stays middle) (second : middle.Stays after) : s.Stays after where
  names := second.names.trans first.names
  now := second.now.trans first.now
  engine := second.engine.trans first.engine
  listening := second.listening.trans first.listening
  registry := second.registry.trans first.registry
  settings := second.settings.trans first.settings
  calls := second.calls.trans first.calls
  callCount := second.callCount.trans first.callCount
  kept_alive := fun kept => second.kept_alive (first.kept_alive kept)
  leased := second.leased.trans first.leased
  numbered := fun numbered => second.numbered (first.numbered numbered)

theorem Defers.refl (s : System) : s.Defers s [] where
  toStays := .refl s
  deferred := (List.append_nil _).symm
  awaiting := rfl
  delayed := rfl

theorem Defers.trans (first : s.Defers middle works) (second : middle.Defers after others) :
    s.Defers after (works ++ others) where
  toStays := first.toStays.trans second.toStays
  deferred := by rw [second.deferred, first.deferred, List.append_assoc]
  awaiting := second.awaiting.trans first.awaiting
  delayed := second.delayed.trans first.delayed

theorem defers_note (s : System) (note : Note) (quiet : (JournalEntry.mk s.now note).leased = []) :
    s.Defers (s.note note) [] :=
  { Defers.refl s with
    leased := by simp only [leased, System.note, List.flatMap_cons, quiet, List.nil_append] }

theorem defers_log (s : System) (record : LogRecord) : s.Defers (s.log record) [] := s.defers_note _ rfl

theorem defers_count (s : System) (counters : Counters) : s.Defers { s with counters := counters } [] :=
  { Defers.refl s with }

theorem defers_submit (ungated : s.gate = none) (label : String) (bounded : Bool) (work : Work) :
    s.Defers (s.submit label bounded work) [work] := by
  rw [← List.append_nil [work]]
  have submitted : s.Defers { s with host := s.host.submit label bounded work } [work] := { Defers.refl s with
    deferred := by simp [deferred, ungated, Host.submit]
    awaiting := by simp [awaiting, ungated, Host.submit]
    numbered := fun numbered => numbered.submit label bounded work }
  exact submitted.trans (defers_note _ _ rfl)

theorem defers_afterCommit (s : System) (label : String) (work : Work) :
    s.Defers (s.afterCommit label work) [work] := by
  rw [← List.nil_append [work]]
  refine (s.defers_note _ rfl).trans (?_ : (s.note (.afterCommit label)).Defers _ [work])
  unfold System.afterCommit
  cases gate : (s.note (.afterCommit label)).gate with
  | none =>
    simp only [gate]
    exact defers_submit gate label false work
  | some held =>
    simp only [gate]
    exact { Defers.refl (s.note (.afterCommit label)) with
      deferred := by simp [deferred, gate]
      awaiting := by simp [awaiting, gate] }

/-- The registration that a dispatcher leases for when an activity is entered, if there is one. -/
def serving? (s : System) (event : ActivityStarted) : Option Registration :=
  (s.engine.topic? event.definitionKey event.activity).bind fun topic =>
    s.registry.lookup ⟨event.definitionKey, topic⟩

/-- What subscribers do about activities that were entered: for each that a registration serves, a lease
is deferred if the dispatcher lives and listens. -/
structure Answers (s after : System) (events : List ActivityStarted) (leases : List Registration) : Prop where
  defers : s.Defers after (leases.map .deferLease)
  registered : ∀ registration ∈ leases, registration ∈ s.registry.entries
  silent : events = [] → leases = []
  served : s.Kept → 0 < s.listening → ∀ event ∈ events, ∀ registration,
    s.serving? event = some registration → registration ∈ leases

theorem Defers.serving? (defers : s.Defers after works) (event : ActivityStarted) :
    after.serving? event = s.serving? event := by
  simp only [System.serving?, defers.engine, defers.registry]

theorem Answers.trans {earlier later : List ActivityStarted} {first second : List Registration}
    (before : s.Answers middle earlier first) (next : middle.Answers after later second) :
    s.Answers after (earlier ++ later) (first ++ second) where
  defers := by
    rw [List.map_append]
    exact before.defers.trans next.defers
  registered := by
    intro registration member
    rcases List.mem_append.mp member with early | late
    · exact before.registered registration early
    · exact before.defers.registry ▸ next.registered registration late
  silent := by
    intro none'
    obtain ⟨early, late⟩ := List.append_eq_nil_iff.mp none'
    rw [before.silent early, next.silent late, List.append_nil]
  served := by
    intro kept listens event member registration serves
    rcases List.mem_append.mp member with early | late
    · exact List.mem_append_left _ (before.served kept listens event early registration serves)
    · refine List.mem_append_right _ (next.served ?_ ?_ event late registration ?_)
      · exact before.defers.kept_alive kept
      · rw [before.defers.listening]
        exact listens
      · rw [before.defers.serving?]
        exact serves

/-- A subscriber that lives asks for the topic, and defers a lease if a registration serves it. -/
theorem react_eq {event : ActivityStarted} (alive : s.isAlive = true) :
    s.react event = (s.serving? event).elim (s.note (.topicAsked event.definitionKey event.activity
      (s.engine.topic? event.definitionKey event.activity)))
        fun registration => (s.note (.topicAsked event.definitionKey event.activity
          (s.engine.topic? event.definitionKey event.activity))).afterCommit "fetch_and_lock"
            (.deferLease registration) := by
  unfold System.react
  rw [if_neg (not_not_intro alive)]
  simp only
  split
  · next registration found =>
    rw [show s.serving? event = some registration from found]
    rfl
  · next found =>
    rw [show s.serving? event = none from found]
    rfl

/-- One reaction is an answer whether the subscriber listens or not. -/
theorem answers_react (s : System) (event : ActivityStarted) :
    ∃ leases, s.Answers (s.react event) [event] leases := by
  by_cases alive : s.isAlive = true
  · have asked := s.defers_note (.topicAsked event.definitionKey event.activity
      (s.engine.topic? event.definitionKey event.activity)) rfl
    rw [react_eq alive]
    cases serves : s.serving? event with
    | none =>
      refine ⟨[], asked, by simp, by simp, fun _ _ event' member registration found => ?_⟩
      rw [List.mem_singleton.mp member, serves] at found
      cases found
    | some registration =>
      obtain ⟨topic, _, registered⟩ := Option.bind_eq_some_iff.mp serves
      refine ⟨[registration], asked.trans (defers_afterCommit _ _ _), ?_, by simp, ?_⟩
      · intro other member
        rw [List.mem_singleton.mp member]
        exact List.mem_of_find?_eq_some registered
      · intro _ _ event' member other found
        rw [List.mem_singleton.mp member, serves] at found
        rw [Option.some.inj found]
        exact List.mem_singleton_self other
  · have ignored : s.react event = s := by simp [System.react, alive]
    rw [ignored]
    refine ⟨[], .refl s, by simp, by simp, fun kept => absurd ?_ alive⟩
    rcases kept with owned | swept
    · simp [isAlive, owned]
    · simp [isAlive, swept]

theorem answers_announce (s : System) (event : ActivityStarted) :
    ∃ leases, s.Answers (s.announce event) [event] leases := by
  -- each subscription reacts for itself, and one that does is enough
  have reactions (times : List Nat) (t : System) : ∃ leases : List Registration,
      t.Defers (times.foldl (fun s _ => s.react event) t) (leases.map .deferLease) ∧
      (∀ registration ∈ leases, registration ∈ t.registry.entries) ∧
      (t.Kept → 0 < t.listening → times ≠ [] → ∀ registration,
        t.serving? event = some registration → registration ∈ leases) := by
    induction times generalizing t with
    | nil => exact ⟨[], .refl t, by simp, fun _ _ some' => absurd rfl some'⟩
    | cons _ rest ih =>
      obtain ⟨first, reacts⟩ := answers_react t event
      obtain ⟨others, defers, registered, _⟩ := ih (t.react event)
      refine ⟨first ++ others, ?_, ?_, ?_⟩
      · rw [List.map_append]
        exact reacts.defers.trans defers
      · intro registration member
        rcases List.mem_append.mp member with early | late
        · exact reacts.registered registration early
        · exact reacts.defers.registry ▸ registered registration late
      · intro kept listens _ registration serves
        exact List.mem_append_left _
          (reacts.served kept listens event (List.mem_singleton_self event) registration serves)
  obtain ⟨leases, defers, registered, served⟩ := reactions (List.range s.listening) (s.note (.started event))
  have noted := s.defers_note (.started event) rfl
  refine ⟨leases, noted.trans defers, registered, by simp,
    fun kept listens event' member registration serves => ?_⟩
  rw [List.mem_singleton.mp member] at serves
  refine served kept listens ?_ registration serves
  simpa using Nat.ne_of_gt listens

theorem answers_announceAll (s : System) (events : List ActivityStarted) :
    ∃ leases, s.Answers (events.foldl System.announce s) events leases := by
  induction events generalizing s with
  | nil => exact ⟨[], .refl s, by simp, by simp, by simp⟩
  | cons event rest ih =>
    obtain ⟨first, announced⟩ := answers_announce s event
    obtain ⟨others, later⟩ := ih (s.announce event)
    exact ⟨first ++ others, announced.trans later⟩

/-- A system as a call of its engine leaves it, before subscribers learn of the call. -/
def advanced (s : System) {kind : AnswerKind} (operation : Operation kind) : System :=
  { s with engine := (s.engine.step s.now (s.names.next s.engine) operation).engine }

theorem answers_call (s : System) {kind : AnswerKind} (operation : Operation kind) :
    ∃ leases, (s.advanced operation).Answers (s.call operation).2
      (s.engine.step s.now (s.names.next s.engine) operation).started leases :=
  answers_announceAll (s.advanced operation) _

theorem ask_eq {kind : AnswerKind} {operation : Operation kind} {result : Except EngineError kind.Value}
    (answered : (s.engine.step s.now (s.names.next s.engine) operation).result = result) :
    s.ask operation = (result, (s.ask operation).2) := Prod.ext answered rfl

/-- A call that starts nothing is no event for the engine's subscribers, it is only observed. -/
theorem ask_silent {kind : AnswerKind} {operation : Operation kind}
    (silent : (s.engine.step s.now (s.names.next s.engine) operation).started = []) :
    (s.ask operation).2 = (s.advanced operation).note
      (.asked kind operation (s.engine.step s.now (s.names.next s.engine) operation).result) := by
  have called : (s.call operation).2 = (s.engine.step s.now (s.names.next s.engine) operation).started.foldl
      System.announce (s.advanced operation) := rfl
  rw [silent] at called
  exact congrArg (System.note · (.asked kind operation
    (s.engine.step s.now (s.names.next s.engine) operation).result)) called

/-- A call that is not a lease leaves no more behind for being observed. -/
theorem answers_ask (s : System) {kind : AnswerKind} (operation : Operation kind)
    (quiet : ∀ now result, (JournalEntry.mk now (.asked kind operation result)).leased = []) :
    ∃ leases, (s.advanced operation).Answers (s.ask operation).2
      (s.engine.step s.now (s.names.next s.engine) operation).started leases := by
  obtain ⟨leases, called⟩ := s.answers_call operation
  have noted := (s.call operation).2.defers_note (.asked kind operation (s.call operation).1) (quiet _ _)
  refine ⟨leases, ?_, called.registered, called.silent, called.served⟩
  rw [← List.append_nil (leases.map _)]
  exact called.defers.trans noted

end System

end TaskLeasing
