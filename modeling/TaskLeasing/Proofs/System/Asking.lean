import TaskLeasing.Proofs.System.Duties

namespace TaskLeasing

/-- A call of the engine that was made, with its result. -/
structure Asked where
  kind : AnswerKind
  operation : Operation kind
  result : Except EngineError kind.Value

def JournalEntry.asked? (entry : JournalEntry) : Option Asked :=
  match entry.note with
  | .asked kind operation result => some ⟨kind, operation, result⟩
  | _ => none

/-- The calls of the engine that the dispatcher was seen to make so far, the latest first. -/
def System.asked (s : System) : List Asked := s.journal.filterMap JournalEntry.asked?

/-- Calls made one after the other at one time lead, each with its result, from one engine to another. -/
def Engine.Hears (now : Instant) (names : Naming) : Engine → List Asked → Engine → Prop
  | e, [], after => after = e
  | e, ask :: rest, after => ask.result = (e.step now (names.next e) ask.operation).result ∧
      Engine.Hears now names (e.step now (names.next e) ask.operation).engine rest after

theorem Engine.Hears.append {now : Instant} {names : Naming} {e middle after : Engine} {first second : List Asked}
    (before : e.Hears now names first middle) (next : middle.Hears now names second after) :
    e.Hears now names (first ++ second) after := by
  induction first generalizing e with
  | nil =>
    obtain rfl := before
    exact next
  | cons ask rest ih => exact ⟨before.1, ih before.2⟩

theorem Engine.Hears.of_append {now : Instant} {names : Naming} {e after : Engine} {first second : List Asked}
    (hears : e.Hears now names (first ++ second) after) :
    ∃ middle, e.Hears now names first middle ∧ middle.Hears now names second after := by
  induction first generalizing e with
  | nil => exact ⟨e, rfl, hears⟩
  | cons ask rest ih =>
    obtain ⟨middle, before, next⟩ := ih hears.2
    exact ⟨middle, ⟨hears.1, before⟩, next⟩

/-- What each of the calls keeps, all of them keep. -/
theorem Engine.Hears.keeps {now : Instant} {names : Naming} {e after : Engine} {asks : List Asked}
    {P : Engine → Prop} (hears : e.Hears now names asks after) (holds : P e)
    (each : ∀ e, P e → ∀ ask ∈ asks, ask.result = (e.step now (names.next e) ask.operation).result →
      P (e.step now (names.next e) ask.operation).engine) : P after := by
  induction asks generalizing e with
  | nil =>
    obtain rfl := hears
    exact holds
  | cons ask rest ih =>
    exact ih hears.2 (each e holds ask (List.mem_cons_self ..) hears.1) fun e holds other member =>
      each e holds other (List.mem_cons_of_mem _ member)

/-- Each of the calls finds what they keep. -/
theorem Engine.Hears.during {now : Instant} {names : Naming} {e after : Engine} {asks : List Asked}
    {P : Engine → Prop} (hears : e.Hears now names asks after) (holds : P e)
    (each : ∀ e, P e → ∀ ask ∈ asks, ask.result = (e.step now (names.next e) ask.operation).result →
      P (e.step now (names.next e) ask.operation).engine) {ask : Asked} (member : ask ∈ asks) :
    ∃ e, P e ∧ ask.result = (e.step now (names.next e) ask.operation).result := by
  induction asks generalizing e with
  | nil => cases member
  | cons first rest ih =>
    rcases List.mem_cons.mp member with rfl | later
    · exact ⟨e, holds, hears.1⟩
    · exact ih hears.2 (each e holds first (List.mem_cons_self ..) hears.1) (fun e holds other among =>
        each e holds other (List.mem_cons_of_mem _ among)) later

/-- The leased tasks that a work is to bring to their processors. -/
def Work.leases : Work → List LeasedTask
  | .handOut tasks => tasks
  | .process task => [task]
  | _ => []

/-- The leased tasks on their way to a processor. -/
def System.handed (s : System) : List LeasedTask :=
  (s.deferred ++ (s.awaiting ++ s.host.delayed.map DelayedAction.work)).flatMap Work.leases

/-- What a part of the dispatcher does: it calls the engine, and leaves leased tasks to be brought to their
processors. -/
structure System.Does (s after : System) (asks : List Asked) (leases : List LeasedTask) : Prop where
  names : after.names = s.names
  now : after.now = s.now
  registry : after.registry = s.registry
  settings : after.settings = s.settings
  calls : after.calls = s.calls
  callCount : after.callCount = s.callCount
  engine : s.engine.Hears s.now s.names asks after.engine
  asked : after.asked = asks.reverse ++ s.asked
  handed : after.handed.Perm (s.handed ++ leases)
  numbered : s.host.Numbered → after.host.Numbered

namespace System

variable {s middle after : System} {asks more : List Asked} {leases others : List LeasedTask}

theorem Does.refl (s : System) : s.Does s [] [] where
  names := rfl
  now := rfl
  registry := rfl
  settings := rfl
  calls := rfl
  callCount := rfl
  engine := rfl
  asked := rfl
  handed := by rw [List.append_nil]
  numbered := id

theorem Does.trans (first : s.Does middle asks leases) (second : middle.Does after more others) :
    s.Does after (asks ++ more) (leases ++ others) where
  names := second.names.trans first.names
  now := second.now.trans first.now
  registry := second.registry.trans first.registry
  settings := second.settings.trans first.settings
  calls := second.calls.trans first.calls
  callCount := second.callCount.trans first.callCount
  engine := by
    have later := second.engine
    rw [first.now, first.names] at later
    exact first.engine.append later
  asked := by rw [second.asked, first.asked, List.reverse_append, List.append_assoc]
  handed := by
    rw [← List.append_assoc]
    exact second.handed.trans (first.handed.append_right others)
  numbered := fun numbered => second.numbered (first.numbered numbered)

/-- What makes no call and hands no task out may follow. -/
theorem Does.then (first : s.Does middle asks leases) (second : middle.Does after [] []) :
    s.Does after asks leases := by
  simpa only [List.append_nil] using first.trans second

/-- Works that are deferred bring their leased tasks with them. -/
theorem Defers.does {works : List Work} (defers : s.Defers after works) (asked : after.asked = s.asked) :
    s.Does after [] (works.flatMap Work.leases) where
  names := defers.names
  now := defers.now
  registry := defers.registry
  settings := defers.settings
  calls := defers.calls
  callCount := defers.callCount
  engine := defers.engine
  asked := asked
  handed := by
    simp only [handed, defers.deferred, defers.awaiting, defers.delayed, List.flatMap_append, List.append_assoc]
    rw [← List.append_assoc (s.awaiting.flatMap Work.leases)]
    exact List.perm_append_comm.append_left _
  numbered := defers.numbered

theorem does_note (s : System) {note : Note} (quiet : (JournalEntry.mk s.now note).asked? = none) :
    s.Does (s.note note) [] [] := by
  have unleased : (JournalEntry.mk s.now note).leased = [] := by
    cases note with
    | asked kind operation result => cases quiet
    | _ => rfl
  exact (s.defers_note note unleased).does (by simp [asked, System.note, quiet])

theorem does_log (s : System) (record : LogRecord) : s.Does (s.log record) [] [] := s.does_note rfl

theorem does_count (s : System) (counters : Counters) : s.Does { s with counters := counters } [] [] :=
  (s.defers_count counters).does rfl

theorem asked_note {note : Note} (quiet : (JournalEntry.mk s.now note).asked? = none) :
    (s.note note).asked = s.asked := (s.does_note quiet).asked

theorem asked_afterCommit (s : System) (label : String) (work : Work) :
    (s.afterCommit label work).asked = s.asked := by
  unfold System.afterCommit
  simp only
  split <;> rfl

theorem does_afterCommit (s : System) (label : String) (work : Work) :
    s.Does (s.afterCommit label work) [] work.leases := by
  have deferred := (s.defers_afterCommit label work).does (s.asked_afterCommit label work)
  simpa only [List.flatMap_cons, List.flatMap_nil, List.append_nil] using deferred

theorem asked_react (s : System) (event : ActivityStarted) : (s.react event).asked = s.asked := by
  unfold System.react
  split
  · rfl
  · simp only
    split
    · exact (asked_afterCommit _ _ _).trans (asked_note rfl)
    · rfl

theorem asked_announce (s : System) (event : ActivityStarted) : (s.announce event).asked = s.asked := by
  have reactions (times : List Nat) (t : System) :
      (times.foldl (fun s _ => s.react event) t).asked = t.asked := by
    induction times generalizing t with
    | nil => rfl
    | cons _ rest ih => exact (ih (t.react event)).trans (t.asked_react event)
  exact (reactions _ _).trans (asked_note rfl)

theorem asked_announceAll (s : System) (events : List ActivityStarted) :
    (events.foldl System.announce s).asked = s.asked := by
  induction events generalizing s with
  | nil => rfl
  | cons event rest ih => exact (ih (s.announce event)).trans (s.asked_announce event)

/-- A call of the engine, before it is noted. Whatever its subscribers do about it, they hand out no task. -/
theorem does_call (s : System) {kind : AnswerKind} (operation : Operation kind) :
    (s.advanced operation).Does (s.call operation).2 [] [] := by
  obtain ⟨leases, answers⟩ := s.answers_call operation
  have none' : (leases.map Work.deferLease).flatMap Work.leases = [] := by
    simp [List.flatMap_map, Work.leases]
  have does := answers.defers.does (asked_announceAll _ _)
  rwa [none'] at does

theorem does_ask (s : System) {kind : AnswerKind} (operation : Operation kind) :
    s.Does (s.ask operation).2 [⟨kind, operation, (s.ask operation).1⟩] [] := by
  have called := s.does_call operation
  refine ⟨called.names, called.now, called.registry, called.settings, called.calls, called.callCount, ⟨rfl, ?_⟩, ?_,
    ?_, called.numbered⟩
  · exact called.engine
  · have before : (s.call operation).2.asked = s.asked := called.asked
    simpa [System.ask, asked, System.note, JournalEntry.asked?] using before
  · exact called.handed

end System

end TaskLeasing
