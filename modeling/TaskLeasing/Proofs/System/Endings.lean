import TaskLeasing.Proofs.Engine.Accounts
import TaskLeasing.System.Timeout

namespace TaskLeasing

/-- A task that is not open is not found. -/
theorem Engine.findTask_gone {e : Engine} {task : String} (available : e.available = true)
    (gone : ∀ record ∈ e.tasks, record.task.id ≠ task) : e.findTask task = e.answer none := by
  have absent : e.record? task = none := List.find?_eq_none.mpr fun record member => by
    simpa using gone record member
  simp only [findTask, available, not_true_eq_false, if_false, absent, Option.map_none]

namespace System

variable {s : System} {task : String}

theorem ask_findTask_gone (available : s.engine.available = true)
    (gone : ∀ record ∈ s.engine.tasks, record.task.id ≠ task) :
    s.ask (.findTask task) = (.ok none, s.note (.asked .task (.findTask task) (.ok none))) := by
  simp only [ask, call, Engine.step, Engine.findTask_gone available gone, Engine.answer, List.foldl_nil]

/-- A response to a task that is not open is not taken. -/
theorem respond_gone (available : s.engine.available = true)
    (gone : ∀ record ∈ s.engine.tasks, record.task.id ≠ task) (input : Json) :
    (s.respond task input).1 = .finished (.error (.notFound task)) ∧
      (s.respond task input).2.engine = s.engine := by
  simp only [respond, ask_findTask_gone available gone, Option.filter_none]
  exact ⟨trivial, rfl⟩

/-- A watchdog finds a task that is not open gone, whatever lock it was armed for. -/
theorem fireWatchdog_gone (available : s.engine.available = true) {payload : String} {watchdog : Watchdog}
    (read : Watchdog.ofPayload? payload = some watchdog)
    (gone : ∀ record ∈ s.engine.tasks, record.task.id ≠ watchdog.task) :
    (s.fireWatchdog payload).1 = .ok .taskGone ∧ (s.fireWatchdog payload).2.engine = s.engine := by
  simp only [fireWatchdog, read, checkWatchdog, ask_findTask_gone available gone]
  exact ⟨trivial, rfl⟩

end System

namespace Engine

/-- A task ends at most once, and by its last lessee. Whoever is not the last one that it was leased to is
refused in all that it tells of the task; the variables that the task was completed with are those of its one
completion for ever; and once it has ended, nothing that names it, be it a call of the engine, a response or a
watchdog, finds it or changes the engine. -/
theorem run_ends_once (task : String) (moves more : List EngineMove) (fresh : FreshMoves (moves ++ more)) :
    (empty.endsOf task moves).length ≤ 1 ∧
    (∀ (now : Instant) (names : FreshNames) (kind : AnswerKind) (operation : Operation kind) (worker : String),
      operation.toldBy? = some (task, worker) → (empty.lesseesOf task moves).getLast? ≠ some worker →
        (∃ reason, ((empty.run moves).step now names operation).result = .error reason) ∧
          ((empty.run moves).step now names operation).engine = empty.run moves) ∧
    (∀ vars, (.completed vars ∈ empty.endsOf task moves ↔ (empty.run moves).completionOf? task = some vars) ∧
      (.completed vars ∈ empty.endsOf task moves →
        (empty.run (moves ++ more)).completionOf? task = some vars)) ∧
    (empty.endsOf task moves ≠ [] → (empty.run (moves ++ more)).available = true →
      (∀ (now : Instant) (names : FreshNames) (kind : AnswerKind) (operation : Operation kind) (worker : String),
        operation.toldBy? = some (task, worker) →
          (∃ reason, ((empty.run (moves ++ more)).step now names operation).result = .error reason) ∧
            ((empty.run (moves ++ more)).step now names operation).engine = empty.run (moves ++ more)) ∧
      (empty.run (moves ++ more)).findTask task = (empty.run (moves ++ more)).answer none ∧
      ∀ s : System, s.engine = empty.run (moves ++ more) →
        (∀ input, (s.respond task input).1 = .finished (.error (.notFound task)) ∧
          (s.respond task input).2.engine = s.engine) ∧
        ∀ payload watchdog, Watchdog.ofPayload? payload = some watchdog → watchdog.task = task →
          (s.fireWatchdog payload).1 = .ok .taskGone ∧ (s.fireWatchdog payload).2.engine = s.engine) := by
  have accounts := accounts_run task fresh.left
  have later := accounts_run task fresh
  refine ⟨accounts.once, ?taken, fun vars => ?completions, fun ended available => ?gone⟩
  case taken =>
    intro now names kind operation worker told other
    obtain ⟨reason, barred⟩ := accounts.barred other
    exact told_refused barred now names told
  case completions =>
    refine ⟨accounts.completed_iff vars, fun member => (later.completed_iff vars).mp ?_⟩
    rwa [endsOf_append fresh (List.ne_nil_of_mem member)]
  case gone =>
    have stays := endsOf_append fresh ended
    have gone := later.closed (stays ▸ ended)
    refine ⟨fun now names kind operation worker told => ?_, findTask_gone available gone, fun s same => ⟨?_, ?_⟩⟩
    · exact told_refused (ownedRecord_gone gone worker) now names told
    · intro input
      exact System.respond_gone (same ▸ available) (same ▸ gone) input
    · rintro payload watchdog read rfl
      exact System.fireWatchdog_gone (same ▸ available) read (same ▸ gone)

/-- A task that a second worker took over and completed takes nothing more from either of the two. -/
theorem run_ends_once_taken_over :
    let pay : Activity := ⟨"pay", .serviceTask, some "money", none⟩
    let moves : List EngineMove :=
      [.call .epoch ⟨"a", "a", "a", "a", "a"⟩ (.deploy ⟨"order", [pay]⟩),
        .call .epoch ⟨"b", "b", "b", "b", "b"⟩ (.start "order" none .empty),
        .call .epoch ⟨"c", "c", "c", "c", "c"⟩ (.lease ⟨1, "w", "money", .zero, .all, none⟩),
        .call .epoch ⟨"d", "d", "d", "d", "d"⟩ (.lease ⟨1, "v", "money", .zero, .all, none⟩),
        .call .epoch ⟨"e", "e", "e", "e", "e"⟩ (.complete "b" "v" .empty)]
    let more : List EngineMove :=
      [.call .epoch ⟨"f", "f", "f", "f", "f"⟩ (.businessError "b" "v" "late" "" none)]
    let names : FreshNames := ⟨"g", "g", "g", "g", "g"⟩
    empty.lesseesOf "b" moves = ["w", "v"] ∧ empty.endsOf "b" moves = [.completed .empty] ∧
      ((empty.run moves).step .epoch names (.complete "b" "w" .empty)).engine = empty.run moves ∧
      (empty.run (moves ++ more)).completionOf? "b" = some .empty ∧
      ((empty.run (moves ++ more)).step .epoch names (.complete "b" "v" .empty)).engine =
        empty.run (moves ++ more) := by
  refine ⟨?leased, ?ended, ?taken, ?kept, ?again⟩
  case leased => rfl
  case ended => rfl
  case taken => exact ((run_ends_once "b" _ [] (by decide)).2.1 _ _ _ _ "w" (by rfl) (by decide)).2
  case kept => exact ((run_ends_once "b" _ _ (by decide)).2.2.1 .empty).2 (List.mem_singleton_self _)
  case again =>
    refine (((run_ends_once "b" _ _ (by decide)).2.2.2 ?_ (by rfl)).1 _ _ _ _ "v" (by rfl)).2
    exact List.cons_ne_nil (TaskEnd.completed .empty) []

end Engine

end TaskLeasing
